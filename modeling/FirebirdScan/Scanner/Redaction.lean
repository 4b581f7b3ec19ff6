import FirebirdScan.Query.Erasure
import FirebirdScan.Scanner.Telemetry

/-!
# `Scanner.Redaction` — what the record of a query shows of its text constants

Text that is bound is redacted in the record; text that is inlined is part of the SQL, which the record holds twice.
The hook inlines two kinds of text: the pattern of a `LIKE`, and the literals that `none_pushdown` re-encodes, which
the record is meant to show.

`Variant` relates two predicates that differ in their text at most and of which the hook makes the same. Two queries
of variants leave the same record but for the inlined texts (`text_constants_redacted`).
-/

namespace FirebirdScan

/-! ## Shapes -/

/-- The shapes that the hook looks for, by the head of the predicate. -/
inductive PushShape where
  | like | literal | negated
deriving DecidableEq

def Expression.pushShape : Expression → Option PushShape
  | .boundFunction _ _ => some .like
  | .boundComparison _ _ _ => some .literal
  | .boundOperator .compareIn _ => some .literal
  | .boundOperator .compareNotIn _ => some .negated
  | .boundOperator .operatorNot _ => some .negated
  | _ => none

@[simp] theorem pushShape_eraseText (e : Expression) : e.eraseText.pushShape = e.pushShape := by
  cases e with
  | boundOperator type children => cases type <;> rfl
  | _ => rfl

section Shapes

variable {api : DuckdbApi} {bind : FirebirdBindData} {colIds : List Nat} {e : Expression} {p : Pushdown}

theorem likePushdown_shape (h : likePushdown bind colIds e = some p) : e.pushShape = some .like := by
  obtain ⟨x, hx, -⟩ := Option.map_eq_some_iff.mp h
  unfold tryExtractLikePrefix at hx
  split at hx
  · rfl
  · cases hx

theorem nonePushdown_shape (h : nonePushdown bind colIds e = some p) : e.pushShape = some .literal := by
  obtain ⟨x, hx, -⟩ := Option.map_eq_some_iff.mp h
  unfold noneShape at hx
  rcases hin : tryExtractInList e with _ | found
  · simp only [hin] at hx
    obtain ⟨y, hy, -⟩ := Option.map_eq_some_iff.mp hx
    unfold tryExtractEquality at hy
    split at hy
    · rfl
    · rfl
    · cases hy
  · unfold tryExtractInList at hin
    split at hin
    · rfl
    · cases hin

theorem notInPushdown_shape (h : notInPushdown api bind colIds e = some p) : e.pushShape = some .negated := by
  obtain ⟨x, hx, -⟩ := Option.map_eq_some_iff.mp h
  unfold tryExtractNotIn at hx
  split at hx
  · rfl
  · rfl
  · cases hx

theorem notBoolPushdown_shape (h : notBoolPushdown bind colIds e = some p) : e.pushShape = some .negated := by
  obtain ⟨x, hx, -⟩ := Option.map_eq_some_iff.mp h
  unfold tryExtractNotBoolColumn at hx
  split at hx
  · rfl
  · cases hx

/-- A negation is a `NOT IN` or of a column, never both. -/
theorem notIn_notBool {x : Nat × List Value} {col : Nat} (hin : tryExtractNotIn api e = some x) :
    tryExtractNotBoolColumn e ≠ some col := by
  unfold tryExtractNotIn at hin
  split at hin
  · exact nofun
  · exact nofun
  · cases hin

end Shapes

/-! ## Extraction without text -/

theorem bindableConstant_eraseText (e : Expression) :
    bindableConstant e.eraseText = (bindableConstant e).map Value.eraseText := by
  cases e with
  | boundConstant v =>
      simp only [Expression.eraseText, bindableConstant, Value.eraseText_isNull, Value.eraseText_type]
      split_ifs <;> rfl
  | _ => rfl

theorem mapM_bindableConstant_eraseText (es : List Expression) :
    (es.map Expression.eraseText).mapM bindableConstant =
      (es.mapM bindableConstant).map (List.map Value.eraseText) := by
  induction es with
  | nil => rfl
  | cons e es ih =>
      rw [List.map_cons, List.mapM_cons, List.mapM_cons, bindableConstant_eraseText, ih]
      rcases bindableConstant e with _ | v
      · rfl
      · rcases es.mapM bindableConstant with _ | vs
        · rfl
        · rfl

theorem columnAndItems_eraseText (children : List Expression) :
    columnAndItems bindableConstant (children.map Expression.eraseText) =
      (columnAndItems bindableConstant children).map (Prod.map id (List.map Value.eraseText)) := by
  obtain _ | ⟨subject, _ | ⟨item, items⟩⟩ := children
  · rfl
  · cases subject <;> rfl
  · cases subject with
    | boundColumnRef col returnType =>
        have hitems := mapM_bindableConstant_eraseText (item :: items)
        rw [List.map_cons] at hitems
        simp only [List.map_cons, Expression.eraseText, columnAndItems, hitems]
        rw [Option.map_map, Option.map_map]
        rfl
    | _ => rfl

theorem tryExtractNotIn_eraseText (api : DuckdbApi) (e : Expression) :
    tryExtractNotIn api e.eraseText =
      (tryExtractNotIn api e).map (Prod.map id (List.map Value.eraseText)) := by
  cases e with
  | boundOperator type children =>
      rw [Expression.eraseText, Expression.eraseTexts_eq]
      cases type with
      | compareNotIn => exact columnAndItems_eraseText children
      | operatorNot =>
          obtain _ | ⟨child, _ | ⟨second, rest⟩⟩ := children
          · rfl
          · cases child with
            | boundOperator type' children' =>
                rw [List.map_singleton, Expression.eraseText, Expression.eraseTexts_eq]
                cases type' with
                | compareIn =>
                    simp only [tryExtractNotIn]
                    split_ifs
                    · exact columnAndItems_eraseText children'
                    · rfl
                | _ => rfl
            | _ => rfl
          · cases child with
            | boundOperator type' children' => cases type' <;> rfl
            | _ => rfl
      | _ => rfl
  | _ => rfl

theorem tryExtractNotBoolColumn_eraseText (e : Expression) :
    tryExtractNotBoolColumn e.eraseText = tryExtractNotBoolColumn e := by
  cases e with
  | boundOperator type children =>
      rw [Expression.eraseText, Expression.eraseTexts_eq]
      cases type with
      | operatorNot =>
          obtain _ | ⟨child, _ | ⟨second, rest⟩⟩ := children
          · rfl
          · cases child <;> rfl
          · cases child <;> rfl
      | _ => rfl
  | _ => rfl

/-! ## Two predicates -/

/-- What the hook makes of two predicates is the same: it keeps both, for the same reason if there is one, or it
    pushes both. -/
def Pushdown.SameClass (p p' : Pushdown) : Prop :=
  p.predicate.isSome = p'.predicate.isSome ∧ p.reason = p'.reason

section Variant

variable (api : DuckdbApi) (bind : FirebirdBindData) (colIds : List Nat)

/-- Two predicates that differ in their text constants at most, with the same classification. -/
structure Variant (e e' : Expression) : Prop where
  text : e.eraseText = e'.eraseText
  same_class : (pushdownOf api bind colIds e).SameClass (pushdownOf api bind colIds e')

/-- A predicate whose text the hook inlines. -/
def InlinesText (e : Expression) : Prop :=
  ∃ ep, likePushdown bind colIds e = some (.push ep) ∨ nonePushdown bind colIds e = some (.push ep)

variable {api bind colIds} {e e' : Expression} {ep ep' : ExtraPredicate}

theorem predicate_eq_some {p : Pushdown} : p.predicate = some ep ↔ p = .push ep := by
  cases p <;> simp [Pushdown.predicate]

theorem Variant.pushShape (h : Variant api bind colIds e e') : e.pushShape = e'.pushShape := by
  rw [← pushShape_eraseText e, h.text, pushShape_eraseText]

/-- A push, by its shape. -/
theorem pushdownOf_push (h : pushdownOf api bind colIds e = .push ep) :
    (InlinesText bind colIds e ∧ ep.params = [] ∧ (e.pushShape = some .like ∨ e.pushShape = some .literal)) ∨
      (e.pushShape = some .negated ∧ (notInPushdown api bind colIds e = some (.push ep) ∨
        notBoolPushdown bind colIds e = some (.push ep))) := by
  rcases pushdownOf_shape h nofun with hlike | hnone | hnotIn | hnot
  · obtain ⟨col, pattern, src, -, -, -, rfl⟩ := likePushdown_push hlike
    exact .inl ⟨⟨_, .inl hlike⟩, rfl, .inl (likePushdown_shape hlike)⟩
  · obtain ⟨col, isIn, values, src, encoded, -, -, -, rfl⟩ := nonePushdown_push hnone
    exact .inl ⟨⟨_, .inr hnone⟩, rfl, .inr (nonePushdown_shape hnone)⟩
  · exact .inr ⟨notInPushdown_shape hnotIn, .inl hnotIn⟩
  · exact .inr ⟨notBoolPushdown_shape hnot, .inr hnot⟩

/-- The two pushes for a negation: the same SQL, and the same parameters but for their texts. -/
theorem negated_push (htext : e.eraseText = e'.eraseText)
    (h : notInPushdown api bind colIds e = some (.push ep) ∨ notBoolPushdown bind colIds e = some (.push ep))
    (h' : notInPushdown api bind colIds e' = some (.push ep') ∨ notBoolPushdown bind colIds e' = some (.push ep')) :
    ep.sql = ep'.sql ∧ ep.params.map Value.eraseText = ep'.params.map Value.eraseText := by
  have hin := tryExtractNotIn_eraseText api e
  have hin' := tryExtractNotIn_eraseText api e'
  have hnot := tryExtractNotBoolColumn_eraseText e
  have hnot' := tryExtractNotBoolColumn_eraseText e'
  rw [htext] at hin hnot
  rcases h with h | h
  · obtain ⟨col, values, src, hshape, hsrc, -, rfl⟩ := notInPushdown_push h
    rw [hshape, hin'] at hin
    obtain ⟨⟨col', values'⟩, hshape', hsame⟩ := Option.map_eq_some_iff.mp hin
    obtain ⟨rfl, hvalues⟩ := Prod.mk.inj hsame
    rcases h' with h' | h'
    · obtain ⟨col'', values'', src', hshape'', hsrc', -, rfl⟩ := notInPushdown_push h'
      obtain ⟨rfl, rfl⟩ := Prod.mk.inj (Option.some.inj (hshape'.symm.trans hshape''))
      obtain rfl : src = src' := Option.some.inj (hsrc.symm.trans hsrc')
      have hlength := congrArg List.length hvalues
      rw [List.length_map, List.length_map] at hlength
      refine ⟨?_, hvalues.symm⟩
      rw [hlength]
    · obtain ⟨col'', src', hcol, -⟩ := notBoolPushdown_push h'
      exact absurd hcol (notIn_notBool hshape')
  · obtain ⟨col, src, hshape, hsrc, -, rfl⟩ := notBoolPushdown_push h
    rw [hshape, hnot'] at hnot
    rcases h' with h' | h'
    · obtain ⟨col', values', src', hcol, -⟩ := notInPushdown_push h'
      exact absurd hnot (notIn_notBool hcol)
    · obtain ⟨col', src', hshape', hsrc', -, rfl⟩ := notBoolPushdown_push h'
      obtain rfl : col' = col := Option.some.inj (hshape'.symm.trans hnot)
      obtain rfl : src = src' := Option.some.inj (hsrc.symm.trans hsrc')
      exact ⟨rfl, rfl⟩

/-- **Two pushes**: the same parameters but for their texts, and the same SQL unless a text is inlined. -/
theorem Variant.push (hvariant : Variant api bind colIds e e') (h : pushdownOf api bind colIds e = .push ep)
    (h' : pushdownOf api bind colIds e' = .push ep') :
    ep.params.map Value.eraseText = ep'.params.map Value.eraseText ∧
      ((InlinesText bind colIds e → e = e') → ep.sql = ep'.sql) := by
  have hshape := hvariant.pushShape
  rcases pushdownOf_push h with ⟨hinlines, hparams, hhead⟩ | ⟨hhead, hpush⟩
  · rcases pushdownOf_push h' with ⟨-, hparams', -⟩ | ⟨hhead', -⟩
    · refine ⟨by rw [hparams, hparams'], ?_⟩
      intro hsame
      obtain rfl := hsame hinlines
      rw [Pushdown.push.inj (h.symm.trans h')]
    · rw [hshape, hhead'] at hhead
      rcases hhead with hhead | hhead <;> cases hhead
  · rcases pushdownOf_push h' with ⟨-, -, hhead'⟩ | ⟨-, hpush'⟩
    · rw [← hshape, hhead] at hhead'
      rcases hhead' with hhead' | hhead' <;> cases hhead'
    · obtain ⟨hsql, hparams⟩ := negated_push hvariant.text hpush hpush'
      exact ⟨hparams, fun _ => hsql⟩

variable (api bind colIds) in
/-- What the hook pushes for a list of predicates. -/
def pushedPredicates (es : List Expression) : List ExtraPredicate :=
  es.filterMap fun e => (pushdownOf api bind colIds e).predicate

variable (api bind colIds) in
/-- The reasons that it records. -/
def recordedReasons (es : List Expression) : List String :=
  es.filterMap fun e => (pushdownOf api bind colIds e).reason

/-- Two lists: the parameters are the same but for their texts, and the SQL is the same unless a text is inlined. -/
theorem variants_pushed {es es' : List Expression} (h : List.Forall₂ (Variant api bind colIds) es es') :
    ((pushedPredicates api bind colIds es).flatMap ExtraPredicate.params).map Value.eraseText =
        ((pushedPredicates api bind colIds es').flatMap ExtraPredicate.params).map Value.eraseText ∧
      (List.Forall₂ (fun e e' => InlinesText bind colIds e → e = e') es es' →
        (pushedPredicates api bind colIds es).map ExtraPredicate.sql =
          (pushedPredicates api bind colIds es').map ExtraPredicate.sql) := by
  unfold pushedPredicates
  induction h with
  | nil => exact ⟨rfl, fun _ => rfl⟩
  | @cons e e' es es' hvariant _ ih =>
      obtain ⟨hparams, hsql⟩ := ih
      have hclass := hvariant.same_class.1
      simp only [List.filterMap_cons]
      rcases hpush : (pushdownOf api bind colIds e).predicate with _ | ep
      · rw [hpush] at hclass
        have hnone := Option.isNone_iff_eq_none.mp (Option.isSome_eq_false_iff.mp hclass.symm)
        rw [hnone]
        exact ⟨hparams, fun hsame => hsql (List.forall₂_cons.mp hsame).2⟩
      · rw [hpush] at hclass
        obtain ⟨ep', hpush'⟩ := Option.isSome_iff_exists.mp hclass.symm
        obtain ⟨hhead, hheadSql⟩ := hvariant.push (predicate_eq_some.mp hpush) (predicate_eq_some.mp hpush')
        rw [hpush']
        refine ⟨?_, fun hsame => ?_⟩
        · simp only [List.flatMap_cons, List.map_append, hhead, hparams]
        · obtain ⟨hfirst, hrest⟩ := List.forall₂_cons.mp hsame
          simp only [List.map_cons, hheadSql hfirst, hsql hrest]

theorem variants_reasons {es es' : List Expression} (h : List.Forall₂ (Variant api bind colIds) es es') :
    recordedReasons api bind colIds es = recordedReasons api bind colIds es' := by
  unfold recordedReasons
  induction h with
  | nil => rfl
  | cons hvariant _ ih => rw [List.filterMap_cons, List.filterMap_cons, hvariant.same_class.2, ih]

end Variant

/-! ## Two queries -/

/-- A query: the predicates that the hook is offered, and the filters of the scan. -/
structure ScanFilters where
  complex : List Expression
  table : List (Nat × TableFilter)

/-- A scan without its filters. `colIds` are the columns when the hook runs, `columnIds` those of the cursor. -/
structure FilteredScan where
  bind : ScanBindData
  toText : Value → Bytes
  api : DuckdbApi
  colIds : List Nat
  columnIds : List Nat
  partitions : Nat

namespace FilteredScan

variable (scan : FilteredScan)

/-- The bind data behind the hook. -/
def hooked (complex : List Expression) : ScanBindData :=
  { scan.bind with
    toFirebirdBindData := (pushdownComplexFilter scan.api scan.bind.toFirebirdBindData scan.colIds complex).1 }

/-- The record of a query on a partition. -/
def record (q : ScanFilters) (spec : PartitionSpec) : FirebirdQueryTelemetry :=
  (scan.hooked q.complex).telemetry scan.toText scan.api scan.columnIds q.table scan.partitions spec

/-- The bind data with what the hook wrote. -/
def withHook (extra : List ExtraPredicate) (reasons : List String) : ScanBindData :=
  { scan.bind with extraPredicates := extra, gatedComplexReasons := reasons }

theorem hooked_eq (complex : List Expression) :
    scan.hooked complex =
      scan.withHook
        (scan.bind.extraPredicates ++ pushedPredicates scan.api scan.bind.toFirebirdBindData scan.colIds complex)
        (scan.bind.gatedComplexReasons ++
          recordedReasons scan.api scan.bind.toFirebirdBindData scan.colIds complex) := by
  unfold hooked
  rw [pushdownComplexFilter_eq]
  rfl

end FilteredScan

theorem redactBindValue_eraseText (toText : Value → Bytes) (v : Value) :
    redactBindValue toText v.eraseText = redactBindValue toText v := by
  cases v <;> rfl

theorem redacted_eq {toText : Value → Bytes} {params params' : List Value}
    (h : params.map Value.eraseText = params'.map Value.eraseText) :
    params.map (redactBindValue toText) = params'.map (redactBindValue toText) := by
  have hfun : redactBindValue toText = redactBindValue toText ∘ Value.eraseText :=
    funext fun v => (redactBindValue_eraseText toText v).symm
  rw [hfun, ← List.map_map, ← List.map_map, h]

/-- The extra predicate is made of the texts of the predicates. -/
theorem combinedPredicate_sql {extra extra' : List ExtraPredicate} (whereClause : Bytes)
    (h : extra.map ExtraPredicate.sql = extra'.map ExtraPredicate.sql) :
    combinedPredicate whereClause extra = combinedPredicate whereClause extra' := by
  unfold combinedPredicate
  have hmap : ∀ es : List ExtraPredicate,
      es.foldl (fun acc ep => appendPart (utf8 " AND ") acc ep.sql) whereClause =
        (es.map ExtraPredicate.sql).foldl (appendPart (utf8 " AND ")) whereClause :=
    fun es => List.foldl_map.symm
  rw [hmap, hmap, h]

/-- What the builder makes of two lists of filters that differ in their texts at most. -/
structure SameButTexts (r r' : BuildResult) : Prop where
  sql : r.sql = r'.sql
  indices : r.residualFilterIndices = r'.residualFilterIndices
  reasons : r.residualFilterReasons = r'.residualFilterReasons
  pushed : r.pushedFilterSql = r'.pushedFilterSql
  params : r.params.map Value.eraseText = r'.params.map Value.eraseText

theorem build_sameButTexts {filters filters' : List (Nat × TableFilter)} (api : DuckdbApi) (a : BuildArgs)
    (h : filters.map eraseEntry = filters'.map eraseEntry) :
    SameButTexts (build api a filters) (build api a filters') := by
  have hbuild : (build api a filters).eraseText = (build api a filters').eraseText := by
    rw [← build_eraseText, h, build_eraseText]
  unfold BuildResult.eraseText at hbuild
  obtain ⟨hsql, hindices, hreasons, hparams, hpushed⟩ := BuildResult.mk.inj hbuild
  exact ⟨hsql, hindices, hreasons, hpushed, hparams⟩

section Records

/-- A record without the two fields that hold SQL. -/
def FirebirdQueryTelemetry.withoutSql (rec : FirebirdQueryTelemetry) : FirebirdQueryTelemetry :=
  { rec with remoteSql := [], pushedFilters := [] }

theorem withoutSql_ext {rec rec' : FirebirdQueryTelemetry} (h : rec.withoutSql = rec'.withoutSql)
    (hsql : rec.remoteSql = rec'.remoteSql) (hpushed : rec.pushedFilters = rec'.pushedFilters) : rec = rec' := by
  cases rec
  cases rec'
  simp only [FirebirdQueryTelemetry.withoutSql, FirebirdQueryTelemetry.mk.injEq] at h hsql hpushed ⊢
  exact ⟨hsql, h.2.1, h.2.2.1, h.2.2.2.1, hpushed, h.2.2.2.2.2⟩

variable {scan : FilteredScan} {extra extra' : List ExtraPredicate} {reasons : List String}
  {filters filters' : List (Nat × TableFilter)}

theorem telemetry_withoutSql (hfilters : filters.map eraseEntry = filters'.map eraseEntry)
    (hparams : (extra.flatMap ExtraPredicate.params).map Value.eraseText =
      (extra'.flatMap ExtraPredicate.params).map Value.eraseText) (spec : PartitionSpec) :
    ((scan.withHook extra reasons).telemetry scan.toText scan.api scan.columnIds filters scan.partitions
        spec).withoutSql =
      ((scan.withHook extra' reasons).telemetry scan.toText scan.api scan.columnIds filters' scan.partitions
        spec).withoutSql := by
  -- the loop over the filters does not read the extra predicate
  have hbuild := build_sameButTexts scan.api ((scan.withHook extra reasons).buildArgs scan.columnIds spec) hfilters
  have hindices : ((scan.withHook extra reasons).partitionQuery scan.api scan.columnIds filters
      spec).residualFilterIndices =
        ((scan.withHook extra' reasons).partitionQuery scan.api scan.columnIds filters' spec).residualFilterIndices :=
    hbuild.indices
  have hreasons : ((scan.withHook extra reasons).partitionQuery scan.api scan.columnIds filters
      spec).residualFilterReasons =
        ((scan.withHook extra' reasons).partitionQuery scan.api scan.columnIds filters' spec).residualFilterReasons :=
    hbuild.reasons
  have hbinds : ((scan.withHook extra reasons).partitionQuery scan.api scan.columnIds filters spec).params.map
        Value.eraseText =
      ((scan.withHook extra' reasons).partitionQuery scan.api scan.columnIds filters' spec).params.map
        Value.eraseText := by
    unfold ScanBindData.partitionQuery
    simp only [List.map_append]
    exact congrArg₂ (· ++ ·) hbuild.params hparams
  unfold ScanBindData.telemetry FirebirdQueryTelemetry.withoutSql ScanBindData.residualFilters
    ScanBindData.notPushedReasons
  simp only [hindices, hreasons, redacted_eq hbinds]
  rfl

/-- The whole record, where the hook pushed the same texts. -/
theorem telemetry_eq (hfilters : filters.map eraseEntry = filters'.map eraseEntry)
    (hparams : (extra.flatMap ExtraPredicate.params).map Value.eraseText =
      (extra'.flatMap ExtraPredicate.params).map Value.eraseText)
    (hsql : extra.map ExtraPredicate.sql = extra'.map ExtraPredicate.sql) (spec : PartitionSpec) :
    (scan.withHook extra reasons).telemetry scan.toText scan.api scan.columnIds filters scan.partitions spec =
      (scan.withHook extra' reasons).telemetry scan.toText scan.api scan.columnIds filters' scan.partitions spec := by
  have hargs : (scan.withHook extra reasons).buildArgs scan.columnIds spec =
      (scan.withHook extra' reasons).buildArgs scan.columnIds spec := by
    unfold ScanBindData.buildArgs
    rw [show combinedPredicate _ (scan.withHook extra reasons).extraPredicates =
      combinedPredicate _ (scan.withHook extra' reasons).extraPredicates from combinedPredicate_sql _ hsql]
    rfl
  have hbuild := build_sameButTexts scan.api ((scan.withHook extra' reasons).buildArgs scan.columnIds spec) hfilters
  apply withoutSql_ext (telemetry_withoutSql hfilters hparams spec)
  · show (build _ _ _).sql = (build _ _ _).sql
    rw [hargs]
    exact hbuild.sql
  · show (build _ _ _).pushedFilterSql ++ extra.map _ = (build _ _ _).pushedFilterSql ++ extra'.map _
    rw [hargs, hsql]
    rw [hbuild.pushed]

end Records

/-- **What the record shows of the texts.** Two queries that differ in their text constants at most, and of which the
    hook pushes and keeps the same: their records agree in all but the SQL, and where the inlined texts are the
    same, the last query and the log are the same. -/
theorem text_constants_redacted (scan : FilteredScan) {q q' : ScanFilters}
    (hcomplex :
      List.Forall₂ (Variant scan.api scan.bind.toFirebirdBindData scan.colIds) q.complex q'.complex)
    (htable : q.table.map eraseEntry = q'.table.map eraseEntry) (spec : PartitionSpec) :
    (scan.record q spec).recorded.withoutSql = (scan.record q' spec).recorded.withoutSql ∧
      (List.Forall₂ (fun e e' => InlinesText scan.bind.toFirebirdBindData scan.colIds e → e = e')
          q.complex q'.complex →
        ∀ (state : FirebirdObservabilityState) (logSize : Int64),
          state.recordQuery (scan.record q spec) logSize = state.recordQuery (scan.record q' spec) logSize) := by
  obtain ⟨hparams, hsql⟩ := variants_pushed hcomplex
  have hreasons := variants_reasons hcomplex
  have hallParams : ((scan.bind.extraPredicates ++ pushedPredicates scan.api scan.bind.toFirebirdBindData scan.colIds
        q.complex).flatMap ExtraPredicate.params).map Value.eraseText =
      ((scan.bind.extraPredicates ++ pushedPredicates scan.api scan.bind.toFirebirdBindData scan.colIds
        q'.complex).flatMap ExtraPredicate.params).map Value.eraseText := by
    simp only [List.flatMap_append, List.map_append, hparams]
  unfold FilteredScan.record
  rw [FilteredScan.hooked_eq, FilteredScan.hooked_eq, hreasons]
  constructor
  · exact telemetry_withoutSql htable hallParams spec
  · intro hinlined state logSize
    have hallSql : (scan.bind.extraPredicates ++ pushedPredicates scan.api scan.bind.toFirebirdBindData scan.colIds
          q.complex).map ExtraPredicate.sql =
        (scan.bind.extraPredicates ++ pushedPredicates scan.api scan.bind.toFirebirdBindData scan.colIds
          q'.complex).map ExtraPredicate.sql := by
      rw [List.map_append, List.map_append, hsql hinlined]
    rw [telemetry_eq htable hallParams hallSql spec]

/-- A table with a text column, in UTF-8 or in `CHARACTER SET NONE`, and `none_pushdown`. -/
def employeeScan (characterSetId : Int16) : FilteredScan where
  bind :=
    { columnNames := [utf8 "EMP_NAME"]
      columnDescs := [{ name := utf8 "EMP_NAME", sqltype := .varying, characterSetId }]
      nonePushdown := true
      tableName := utf8 "EMPLOYEE" }
  toText _ := []
  api := .v1_5
  colIds := [0]
  columnIds := [0]
  partitions := 1

/-- `EMP_NAME <> text` and `EMP_NAME NOT IN (text)`. -/
def bindsText (text : String) : ScanFilters where
  complex :=
    [.boundOperator .compareNotIn [.boundColumnRef 0 { id := .varchar }, .boundConstant (.varchar text)]]
  table := [(0, .constantComparison .compareNotEqual (.varchar text))]

/-- `EMP_NAME = text`, as the hook sees it. -/
def equalsText (text : String) : ScanFilters where
  complex := [.boundComparison .compareEqual (.boundColumnRef 0 { id := .varchar }) (.boundConstant (.varchar text))]
  table := []

theorem bindsText_variants :
    List.Forall₂ (Variant .v1_5 (employeeScan 4).bind.toFirebirdBindData [0]) (bindsText "Ann").complex
      (bindsText "O'Connor").complex :=
  .cons ⟨rfl, rfl, rfl⟩ .nil

theorem bindsText_inlines :
    List.Forall₂ (fun e e' => InlinesText (employeeScan 4).bind.toFirebirdBindData [0] e → e = e')
      (bindsText "Ann").complex (bindsText "O'Connor").complex := by
  refine .cons (fun ⟨ep, h⟩ => ?_) .nil
  rcases h with h | h
  · cases h
  · cases h

theorem text_constants_redacted_bindsText :
    ((employeeScan 4).record (bindsText "Ann") {}).recorded.withoutSql =
        ((employeeScan 4).record (bindsText "O'Connor") {}).recorded.withoutSql ∧
      ({} : FirebirdObservabilityState).recordQuery ((employeeScan 4).record (bindsText "Ann") {}) 16 =
        ({} : FirebirdObservabilityState).recordQuery ((employeeScan 4).record (bindsText "O'Connor") {}) 16 := by
  obtain ⟨hrest, hall⟩ := text_constants_redacted (employeeScan 4) bindsText_variants rfl {}
  exact ⟨hrest, hall bindsText_inlines {} 16⟩

/-- **A text that the record shows**: `none_pushdown` inlines the literal of an equality. -/
theorem none_literal_recorded :
    List.Forall₂ (Variant .v1_5 (employeeScan 0).bind.toFirebirdBindData [0]) (equalsText "a").complex
        (equalsText "b").complex ∧
      ((employeeScan 0).record (equalsText "a") {}).recorded.pushedFilters =
        [utf8 "\"EMP_NAME\" = _WIN1252 'a'"] ∧
      ((employeeScan 0).record (equalsText "b") {}).recorded.pushedFilters =
        [utf8 "\"EMP_NAME\" = _WIN1252 'b'"] ∧
      ((employeeScan 0).record (equalsText "a") {}).recorded.remoteSql ≠
        ((employeeScan 0).record (equalsText "b") {}).recorded.remoteSql := by
  refine ⟨.cons ⟨rfl, rfl, rfl⟩ .nil, rfl, rfl, by decide⟩

end FirebirdScan
