import FirebirdScan.Client.AppendValue
import FirebirdScan.Query.Statement
import FirebirdScan.Scanner.Pushed

/-!
# `Scanner.Split` — the hook splits the list of predicates without loss

Every predicate that the hook erases comes back as a predicate of the server. Its text is a fragment that names
one column, the one the erased predicate refers to (`pushdownOf_on`); and the negated shapes have the same
truth value, `NULL` included (`Server.Answers`). `pushdownComplexFilter_split` says so of the whole list.
-/

namespace FirebirdScan

open SearchCondition SqlText

/-! ## The predicates of the hook -/

/-- A predicate whose lexemes are known, with its parameters in their places. -/
def ExtraPredicate.Places (ep : ExtraPredicate) (ps : List Placed) : Prop :=
  Fragment ep.sql ps ∧ constants ps = ep.params

def Placed.isIdent : Placed → Bool
  | .inl (.ident _) => true
  | _ => false

/-- Lexemes without a name. -/
def Nameless (ps : List Placed) : Prop := ∀ p ∈ ps, p.isIdent = false

instance (ps : List Placed) : Decidable (Nameless ps) := inferInstanceAs (Decidable (∀ p ∈ ps, p.isIdent = false))

/-- A predicate on one column: the lexemes of the column, and no other name. -/
def ExtraPredicate.On (ep : ExtraPredicate) (column : List Placed) : Prop :=
  ∃ before after, ep.Places (before ++ (column ++ after)) ∧ Nameless before ∧ Nameless after

theorem Nameless.append {ps qs : List Placed} (hps : Nameless ps) (hqs : Nameless qs) : Nameless (ps ++ qs) :=
  List.forall_mem_append.mpr ⟨hps, hqs⟩

theorem Nameless.paren {ps : List Placed} (h : Nameless ps) : Nameless (paren ps) := by
  have hopen : Nameless [.inl lparen] := by decide
  have hclose : Nameless [.inl rparen] := by decide
  exact hopen.append (h.append hclose)

section Fragments

variable {column : Bytes} {cs : List Placed}

theorem like_fragment (hcolumn : Fragment column cs) (pattern : Bytes) :
    ∃ ps, Fragment (column ++ utf8 " LIKE " ++ sqlLiteral pattern ++ utf8 " ESCAPE '\\'") (cs ++ ps) ∧
      constants ps = [] ∧ Nameless ps := by
  have hlike : Glue (utf8 " LIKE ") [keyword "LIKE"] := by decide
  have hescape : Glue (utf8 " ESCAPE ") [keyword "ESCAPE"] := by decide
  have htail := (sqlLiteral_fragment pattern).between hescape (by decide) (sqlLiteral_fragment (utf8 "\\"))
  have hall := hcolumn.between hlike (by decide) htail
  have hend : utf8 " ESCAPE '\\'" = utf8 " ESCAPE " ++ sqlLiteral (utf8 "\\") := by decide
  refine ⟨_, hall.of_eq ?_, rfl, ?_⟩
  · rw [hend]
    simp only [List.append_assoc]
  · show ∀ p ∈ [.inl (keyword "LIKE"), .inl (.string pattern), .inl (keyword "ESCAPE"), .inl (.string (utf8 "\\"))],
      Placed.isIdent p = false
    simp [Placed.isIdent, keyword]

/-- Fragments with commas between them. -/
theorem list_fragment {texts : List Bytes} {pss : List (List Placed)} (h : List.Forall₂ Fragment texts pss)
    (hnames : ∀ ps ∈ pss, Nameless ps) :
    ∃ ps, Fragment ((utf8 ", ").intercalate texts) ps ∧ constants ps = pss.flatMap constants ∧ Nameless ps := by
  cases h with
  | nil => exact ⟨[], ⟨rfl, rfl, List.not_mem_nil⟩, rfl, List.forall_mem_nil _⟩
  | @cons text ps texts pss htext hrest =>
      induction hrest generalizing text ps with
      | nil =>
          refine ⟨ps, ?_, (List.append_nil _).symm, hnames ps List.mem_cons_self⟩
          rw [List.intercalate_singleton]
          exact htext
      | cons hnext _ ih =>
          obtain ⟨hps, hpss⟩ := List.forall_mem_cons.mp hnames
          obtain ⟨qs, hqs, hconst, hplain⟩ := ih hnext hpss
          have hall := htext.between comma_glue (by decide) hqs
          rw [← List.append_assoc, ← List.intercalate_cons_cons] at hall
          have hsep : Nameless ([comma].map .inl) := by decide
          refine ⟨_, hall, ?_, hps.append (hsep.append hplain)⟩
          rw [constants_append, constants_append, hconst]
          rfl

/-- `col NOT IN (?, …)`. -/
theorem notIn_fragment (hcolumn : Fragment column cs) (values : List Value) :
    ∃ ps, Fragment (notInSql column values.length) (cs ++ ps) ∧ constants ps = values ∧ Nameless ps := by
  have hnotIn : Glue (utf8 " NOT IN ") [keyword "NOT", keyword "IN"] := by decide
  have hitems : List.Forall₂ Fragment (List.replicate values.length (utf8 "?")) (values.map fun v => [.inr v]) := by
    induction values with
    | nil => exact .nil
    | cons v vs ih => exact .cons (placeholder_fragment v) ih
  have hplain : ∀ ps ∈ values.map fun v => ([.inr v] : List Placed), Nameless ps := by
    intro ps hps
    obtain ⟨v, -, rfl⟩ := List.mem_map.mp hps
    exact List.forall_mem_singleton.mpr rfl
  obtain ⟨ps, hps, hvalues, hnames⟩ := list_fragment hitems hplain
  have hall := hcolumn.between hnotIn (by decide) hps.paren
  have hopen : utf8 " NOT IN (" = utf8 " NOT IN " ++ utf8 "(" := by decide
  have hkeywords : Nameless ([keyword "NOT", keyword "IN"].map .inl) := by decide
  refine ⟨_, hall.of_eq ?_, ?_, hkeywords.append hnames.paren⟩
  · rw [notInSql, hopen]
    simp only [List.append_assoc]
  · rw [constants_append, constants_inl, constants_paren, hvalues, List.flatMap_map]
    exact List.flatMap_singleton' values

/-- Re-encoded literals, in a list or alone. -/
theorem none_fragment (hcolumn : Fragment column cs) (mode : NoneEncoding) (isIn : Bool) (encoded : List Bytes) :
    ∃ ps, Fragment (noneSql column (nonePushdownIntroducer mode) isIn encoded) (cs ++ ps) ∧ constants ps = [] ∧
      Nameless ps := by
  have hintroducer : ∃ ts, Closed (nonePushdownIntroducer mode) ts ∧ Nameless (ts.map .inl) := by
    unfold nonePushdownIntroducer
    split_ifs
    · exact ⟨[keyword "_ISO8859_1"], by decide, by decide⟩
    · exact ⟨[keyword "_WIN1252"], by decide, by decide⟩
  obtain ⟨ts, hintroducer, hts⟩ := hintroducer
  -- each encoded constant stands in the text, behind the introducer: none is bound
  have hliteral (b : Bytes) : Fragment (nonePushdownIntroducer mode ++ sqlLiteral b)
      (ts.map .inl ++ [.inl (.string b)]) := hintroducer.append (sqlLiteral_fragment b)
  have hconst (b : Bytes) : constants (ts.map .inl ++ [.inl (.string b)]) = [] := by
    rw [constants_append, constants_inl]
    rfl
  have hplain (b : Bytes) : Nameless (ts.map .inl ++ [.inl (.string b)]) :=
    hts.append (List.forall_mem_singleton.mpr rfl)
  unfold noneSql
  cases isIn with
  | true =>
      have hitems : List.Forall₂ Fragment (encoded.map fun b => nonePushdownIntroducer mode ++ sqlLiteral b)
          (encoded.map fun b => ts.map .inl ++ [.inl (.string b)]) := by
        induction encoded with
        | nil => exact .nil
        | cons b bs ih => exact .cons (hliteral b) ih
      have hnames : ∀ ps ∈ encoded.map fun b => ts.map .inl ++ [.inl (.string b)], Nameless ps := by
        intro ps hps
        obtain ⟨b, -, rfl⟩ := List.mem_map.mp hps
        exact hplain b
      obtain ⟨ps, hps, hvalues, hps'⟩ := list_fragment hitems hnames
      have hall := hcolumn.between in_glue (by decide) hps.paren
      have hopen : utf8 " IN (" = utf8 " IN " ++ utf8 "(" := by decide
      have hkeyword : Nameless ([keyword "IN"].map .inl) := by decide
      refine ⟨_, hall.of_eq ?_, ?_, hkeyword.append hps'.paren⟩
      · rw [if_pos rfl, hopen]
        simp only [List.append_assoc]
      · rw [constants_append, constants_inl, constants_paren, hvalues]
        refine List.flatMap_eq_nil_iff.mpr fun ps hps => ?_
        obtain ⟨b, -, rfl⟩ := List.mem_map.mp hps
        exact hconst b
  | false =>
      have heq : Glue (utf8 " = ") [.symbol 0x3D] := by decide
      have hall := hcolumn.between heq (by decide) (hliteral (encoded.headD []))
      have hsymbol : Nameless ([Lexeme.symbol 0x3D].map .inl) := by decide
      refine ⟨_, hall.of_eq ?_, ?_, hsymbol.append (hplain _)⟩
      · rw [if_neg (by decide)]
        simp only [List.append_assoc]
      · rw [constants_append, constants_inl, hconst]
        rfl

theorem not_fragment (name : Bytes) :
    Fragment (utf8 "NOT " ++ quoteIdent name) ([keyword "NOT"].map .inl ++ [.inl (.ident name)]) := by
  have hnot : Closed (utf8 "NOT ") [keyword "NOT"] := by decide
  exact hnot.append (quoteIdent_fragment name)

end Fragments

/-! ## Columns -/

mutual
/-- The column references of an expression, with their types. -/
def Expression.columnRefs : Expression → List (Nat × LogicalType)
  | .boundColumnRef col type => [(col, type)]
  | .boundCast _ _ child => child.columnRefs
  | .boundComparison _ left right => left.columnRefs ++ right.columnRefs
  | .boundFunction _ children => Expression.columnRefsList children
  | .boundOperator _ children => Expression.columnRefsList children
  | .boundConjunction _ children => Expression.columnRefsList children
  | _ => []

def Expression.columnRefsList : List Expression → List (Nat × LogicalType)
  | [] => []
  | e :: es => e.columnRefs ++ Expression.columnRefsList es
end

/-- The lexemes of a column in a predicate of the hook. -/
def FirebirdBindData.colPlaced (bind : FirebirdBindData) (src : Nat) : List Placed :=
  (columnLexemes (bind.columnNames.getD src []) (bind.isDecfloat src)).map .inl

/-- The column references carry the declared types. -/
def FirebirdBindData.WellTyped (bind : FirebirdBindData) (colIds : List Nat) (widen : Bool) (e : Expression) : Prop :=
  ∀ ref ∈ e.columnRefs, ∀ src, bind.resolveSrcCol colIds ref.1 = some src → ∀ desc ∈ bind.columnDescs[src]?,
    DeclaredType desc bind.noneEncoding widen ref.2

section Columns

variable {bind : FirebirdBindData}

theorem colExpr_fragment (src : Nat) : Fragment (bind.colExpr src) (bind.colPlaced src) := columnSql_fragment _ _

/-- A column declared `BOOLEAN` is no text. -/
theorem not_gated_of_boolean {src : Nat} {widen : Bool} {type : LogicalType} (hbool : type.id = .boolean)
    (htype : ∀ desc ∈ bind.columnDescs[src]?, DeclaredType desc bind.noneEncoding widen type) :
    bind.isNoneTextGated src = false := by
  unfold FirebirdBindData.isNoneTextGated
  cases hdesc : bind.columnDescs[src]? with
  | none => rfl
  | some desc =>
      rw [Option.any_some, Bool.eq_false_iff]
      intro hgate
      have hnone : desc.isNoneText = true := by
        unfold isNoneTextColumnGated at hgate
        split_ifs at hgate
        exact hgate
      have htext : firebirdToDuckDBType desc widen = ⟨.varchar, 0, 0⟩ := by
        simp only [FirebirdColumnDesc.isNoneText, Bool.and_eq_true, Bool.or_eq_true, decide_eq_true_eq] at hnone
        unfold firebirdToDuckDBType
        rcases hnone.2 with (h | h) | ⟨h, hsub⟩
        · rw [h]
        · rw [h]
        · rw [h]
          exact if_pos hsub
      have hvarchar := (htype desc hdesc).varchar (congrArg LogicalType.internalType htext)
      unfold LogicalType.internalType at hvarchar
      rw [hbool] at hvarchar
      cases hvarchar

/-! ## The shapes -/

theorem varcharConstant_eq_some {e : Expression} {s : String} (h : varcharConstant e = some s) :
    e = .boundConstant (.varchar s) := by
  unfold varcharConstant at h
  split at h
  · rw [Option.some.inj h]
  · cases h

theorem bindableConstant_eq_some {e : Expression} {v : Value} (h : bindableConstant e = some v) :
    e = .boundConstant v := by
  unfold bindableConstant at h
  split at h
  · split_ifs at h
    obtain rfl := Option.some.inj h
    exact rfl
  · cases h

/-- Items are constants: they refer to no column. -/
theorem items_eq {α : Type} {item : Expression → Option α} {value : α → Value}
    (hitem : ∀ e a, item e = some a → e = .boundConstant (value a)) {es : List Expression} {as : List α}
    (h : es.mapM item = some as) : es = (as.map value).map .boundConstant := by
  induction es generalizing as with
  | nil =>
      obtain rfl := Option.some.inj h
      rfl
  | cons e es ih =>
      rw [List.mapM_cons] at h
      obtain ⟨a, ha, htail⟩ := Option.bind_eq_some_iff.mp h
      obtain ⟨as', has, heq⟩ := Option.bind_eq_some_iff.mp htail
      obtain rfl := Option.some.inj heq
      rw [List.map_cons, List.map_cons, ← hitem e a ha, ← ih has]

/-- The children of an `IN`: a column, and the items. -/
theorem columnAndItems_eq_some {α : Type} {item : Expression → Option α} {value : α → Value}
    (hitem : ∀ e a, item e = some a → e = .boundConstant (value a)) {children : List Expression} {col : Nat}
    {items : List α} (h : columnAndItems item children = some (col, items)) :
    ∃ type, items ≠ [] ∧ children = .boundColumnRef col type :: (items.map value).map .boundConstant := by
  unfold columnAndItems at h
  split at h
  · obtain ⟨items', hitems, heq⟩ := Option.map_eq_some_iff.mp h
    obtain ⟨rfl, rfl⟩ := Prod.mk.inj heq
    have hes := items_eq hitem hitems
    refine ⟨_, fun hnil => ?_, by rw [hes]⟩
    rw [hnil] at hes
    cases hes
  · cases h

theorem columnRefsList_constants (vs : List Value) :
    Expression.columnRefsList (vs.map .boundConstant) = [] := by
  induction vs with
  | nil => rfl
  | cons v vs ih => exact ih

variable {api : DuckdbApi} {e : Expression} {col : Nat}

theorem columnRefs_like {pattern : String} (h : tryExtractLikePrefix e = some (col, pattern)) :
    ∃ type, e.columnRefs = [(col, type)] := by
  unfold tryExtractLikePrefix at h
  split at h
  · split_ifs at h
    split at h
    · cases h
    next rhs _ hpattern =>
      rw [varcharConstant_eq_some hpattern]
      split at h
      · cases h
      · split_ifs at h
        obtain ⟨rfl, -⟩ := Prod.mk.inj (Option.some.inj h)
        exact ⟨_, rfl⟩
  · cases h

/-- An `IN` over a column refers to the column. -/
theorem columnRefs_in (type : ExpressionType) (col : Nat) (colType : LogicalType) (vs : List Value) :
    (Expression.boundOperator type (.boundColumnRef col colType :: vs.map .boundConstant)).columnRefs =
      [(col, colType)] := by
  show [(col, colType)] ++ Expression.columnRefsList (vs.map .boundConstant) = _
  rw [columnRefsList_constants]
  rfl

theorem columnRefs_none {isIn : Bool} {values : List String} (h : noneShape e = some (col, isIn, values)) :
    ∃ type, e.columnRefs = [(col, type)] := by
  unfold noneShape at h
  split at h
  next _ _ _ hin =>
    obtain ⟨rfl, -⟩ := Prod.mk.inj (Option.some.inj h)
    unfold tryExtractInList at hin
    split at hin
    · obtain ⟨type, -, rfl⟩ := columnAndItems_eq_some (fun _ _ => varcharConstant_eq_some) hin
      exact ⟨type, columnRefs_in _ _ _ _⟩
    · cases hin
  · obtain ⟨⟨col', value⟩, heq, hcol⟩ := Option.map_eq_some_iff.mp h
    obtain ⟨rfl, -⟩ := Prod.mk.inj hcol
    unfold tryExtractEquality at heq
    split at heq
    next =>
      obtain ⟨v, hv, hpair⟩ := Option.map_eq_some_iff.mp heq
      obtain ⟨rfl, -⟩ := Prod.mk.inj hpair
      rw [varcharConstant_eq_some hv]
      exact ⟨_, rfl⟩
    next =>
      obtain ⟨v, hv, hpair⟩ := Option.map_eq_some_iff.mp heq
      obtain ⟨rfl, -⟩ := Prod.mk.inj hpair
      rw [varcharConstant_eq_some hv]
      exact ⟨_, rfl⟩
    · cases heq

/-- A `NOT IN`: an operator of its own, or a negated `IN`. -/
theorem tryExtractNotIn_eq_some {values : List Value} (h : tryExtractNotIn api e = some (col, values)) :
    values ≠ [] ∧ ∃ type,
      e = .boundOperator .compareNotIn (.boundColumnRef col type :: values.map .boundConstant) ∨
      e = .boundOperator .operatorNot
        [.boundOperator .compareIn (.boundColumnRef col type :: values.map .boundConstant)] := by
  have hitem : ∀ e v, bindableConstant e = some v → e = .boundConstant v :=
    fun _ _ => bindableConstant_eq_some
  unfold tryExtractNotIn at h
  split at h
  · obtain ⟨type, hne, rfl⟩ := @columnAndItems_eq_some _ _ id hitem _ _ _ h
    rw [List.map_id]
    exact ⟨hne, type, .inl rfl⟩
  · split_ifs at h
    obtain ⟨type, hne, rfl⟩ := @columnAndItems_eq_some _ _ id hitem _ _ _ h
    rw [List.map_id]
    exact ⟨hne, type, .inr rfl⟩
  · cases h

theorem columnRefs_notIn {values : List Value} (h : tryExtractNotIn api e = some (col, values)) :
    ∃ type, e.columnRefs = [(col, type)] := by
  obtain ⟨-, type, rfl | rfl⟩ := tryExtractNotIn_eq_some h
  · exact ⟨type, columnRefs_in _ _ _ _⟩
  · refine ⟨type, ?_⟩
    show (Expression.boundOperator _ _).columnRefs ++ [] = _
    rw [columnRefs_in, List.append_nil]

theorem tryExtractNotBoolColumn_eq_some (h : tryExtractNotBoolColumn e = some col) :
    ∃ type, e = .boundOperator .operatorNot [.boundColumnRef col type] ∧ type.id = .boolean := by
  unfold tryExtractNotBoolColumn at h
  split at h
  · split_ifs at h with hbool
    obtain rfl := Option.some.inj h
    exact ⟨_, rfl, hbool⟩
  · cases h

variable {colIds : List Nat} {ep : ExtraPredicate}

/-- **A pushed predicate names the column that the filter refers to**, and no other. -/
theorem pushdownOf_on (h : pushdownOf api bind colIds e = .push ep) :
    ∃ col type src, e.columnRefs = [(col, type)] ∧ bind.resolveSrcCol colIds col = some src ∧
      ep.On (bind.colPlaced src) := by
  have hcolumn (src : Nat) : constants (bind.colPlaced src) = [] := constants_inl _
  rcases pushdownOf_shape h nofun with hlike | hnone | hnotIn | hnot
  · obtain ⟨col, pattern, src, hshape, hsrc, -, rfl⟩ := likePushdown_push hlike
    obtain ⟨type, hrefs⟩ := columnRefs_like hshape
    obtain ⟨ps, hps, hconst, hnames⟩ := like_fragment (@colExpr_fragment bind src) (utf8 pattern)
    refine ⟨col, type, src, hrefs, hsrc, [], ps, ⟨hps, ?_⟩, List.forall_mem_nil _, hnames⟩
    rw [List.nil_append, constants_append, hcolumn, hconst]
    rfl
  · obtain ⟨col, isIn, values, src, encoded, hshape, hsrc, -, rfl⟩ := nonePushdown_push hnone
    obtain ⟨type, hrefs⟩ := columnRefs_none hshape
    obtain ⟨ps, hps, hconst, hnames⟩ :=
      none_fragment (@colExpr_fragment bind src) bind.noneEncoding isIn encoded
    refine ⟨col, type, src, hrefs, hsrc, [], ps, ⟨hps, ?_⟩, List.forall_mem_nil _, hnames⟩
    rw [List.nil_append, constants_append, hcolumn, hconst]
    rfl
  · obtain ⟨col, values, src, hshape, hsrc, -, rfl⟩ := notInPushdown_push hnotIn
    obtain ⟨ps, hps, hconst, hnames⟩ := notIn_fragment (@colExpr_fragment bind src) values
    obtain ⟨type, hrefs⟩ := columnRefs_notIn hshape
    refine ⟨col, type, src, hrefs, hsrc, [], ps, ⟨hps, ?_⟩, List.forall_mem_nil _, hnames⟩
    rw [List.nil_append, constants_append, hcolumn, hconst]
    rfl
  · obtain ⟨col, src, hshape, hsrc, hdec, rfl⟩ := notBoolPushdown_push hnot
    obtain ⟨type, rfl, -⟩ := tryExtractNotBoolColumn_eq_some hshape
    have hplaced : bind.colPlaced src = [.inl (.ident (bind.columnNames.getD src []))] := by
      unfold FirebirdBindData.colPlaced columnLexemes
      rw [hdec]
      rfl
    refine ⟨col, type, src, rfl, hsrc, [.inl (keyword "NOT")], [], ⟨?_, ?_⟩, by decide, List.forall_mem_nil _⟩
    · rw [hplaced]
      exact not_fragment _
    · rw [hplaced]
      rfl

/-- **Every predicate of the hook is a fragment**, with its parameters in the places of its placeholders. -/
theorem pushdownOf_places (h : pushdownOf api bind colIds e = .push ep) : ∃ ps, ep.Places ps := by
  obtain ⟨_, _, _, -, -, before, after, hplaces, -⟩ := pushdownOf_on h
  exact ⟨_, hplaces⟩

/-- **A filter on gated text is pushed with re-encoded literals, or not at all.** -/
theorem pushdownOf_gated {widen : Bool} (h : pushdownOf api bind colIds e = .push ep)
    (htyped : bind.WellTyped colIds widen e) {type : LogicalType} {src : Nat} (hrefs : e.columnRefs = [(col, type)])
    (hsrc : bind.resolveSrcCol colIds col = some src) (hgate : bind.isNoneTextGated src = true) :
    bind.nonePushdownActive = true ∧ nonePushdown bind colIds e = some (.push ep) := by
  -- the one reference has the one source column
  have hsame {col' type' src'} (hrefs' : e.columnRefs = [(col', type')])
      (hsrc' : bind.resolveSrcCol colIds col' = some src') : src' = src := by
    rw [hrefs] at hrefs'
    obtain ⟨rfl, -⟩ := Prod.mk.inj (List.singleton_inj.mp hrefs')
    rw [hsrc] at hsrc'
    exact (Option.some.inj hsrc').symm
  rcases pushdownOf_shape h nofun with hlike | hnone | hnotIn | hnot
  · obtain ⟨col', pattern, src', hshape, hsrc', hopen, -⟩ := likePushdown_push hlike
    obtain ⟨type', hrefs'⟩ := columnRefs_like hshape
    rw [hsame hrefs' hsrc', hgate] at hopen
    cases hopen
  · obtain ⟨-, -, -, -, -, -, -, hactive, -⟩ := nonePushdown_push hnone
    exact ⟨hactive, hnone⟩
  · obtain ⟨col', values, src', hshape, hsrc', hopen, -⟩ := notInPushdown_push hnotIn
    obtain ⟨type', hrefs'⟩ := columnRefs_notIn hshape
    rw [hsame hrefs' hsrc', hgate] at hopen
    cases hopen
  · obtain ⟨col', src', hshape, hsrc', -⟩ := notBoolPushdown_push hnot
    obtain ⟨type', rfl, hbool⟩ := tryExtractNotBoolColumn_eq_some hshape
    have hopen := not_gated_of_boolean hbool (htyped (col', type') (by simp [Expression.columnRefs,
      Expression.columnRefsList]) src' hsrc')
    rw [hsame rfl hsrc', hgate] at hopen
    cases hopen

end Columns

/-! ## Truth -/

/-- A value as a truth value. -/
def Value.truth : Value → Truth
  | .boolean b => .ofBool b
  | _ => .unknown

/-- DuckDB's evaluation of a predicate over several columns, as far as it is not in this repository. -/
structure ComplexDuckDb extends DuckDb where
  scalarOn : Expression → (Nat → Value) → Value
  predicateOn : Expression → (Nat → Value) → Truth

namespace ComplexDuckDb

variable (D : ComplexDuckDb) (row : Nat → Value)

/-- An operand's value on a row of the projected columns. -/
def operandOn : Expression → Value
  | .boundColumnRef col _ => row col
  | .boundConstant v => v
  | .boundCast target tryCast child => D.cast target tryCast (operandOn child)
  | e => D.scalarOn e row

/-- An operator over its children, whose truth values come with them; `e` is the expression itself. -/
def operatorOn (e : Expression) : ExpressionType → List Expression → List Truth → Truth
  | .compareIn, subject :: items, _ => D.algebra.member (D.operandOn row subject) (items.map (D.operandOn row))
  | .compareNotIn, subject :: items, _ =>
      (D.algebra.member (D.operandOn row subject) (items.map (D.operandOn row))).not
  | .operatorNot, _, [t] => t.not
  | _, _, _ => D.predicateOn e row

mutual
/-- The truth value of a predicate on a row of the projected columns. -/
def predicateTruth : Expression → Truth
  | .boundColumnRef col _ => (row col).truth
  | .boundOperator type children =>
      D.operatorOn row (.boundOperator type children) type children (predicateTruths children)
  | e => D.predicateOn e row

def predicateTruths : List Expression → List Truth
  | [] => []
  | e :: es => predicateTruth e :: predicateTruths es
end

end ComplexDuckDb

/-- The server's truth value for a predicate of the hook, on a row of the source columns: a test it reads as a
    search condition, or the negation of a column. -/
inductive Server.Answers (S : Server) (columnText : Nat → Bytes) : ExtraPredicate → ((Nat → Value) → Truth) → Prop
  | test {lexemes : List (Token Nat Value)} {cond : Cond Nat Value} {params : List Value} {t : (Nat → Value) → Truth}
      (hread : read lexemes = some cond) (heval : ∀ row, cond.eval S.algebra row params = some (t row, [])) :
      Answers S columnText { sql := render columnText lexemes, params } t
  | not (src : Nat) : Answers S columnText { sql := utf8 "NOT " ++ columnText src } fun row => (row src).truth.not

section Truth

variable {S : Server} {D : ComplexDuckDb} {bind : FirebirdBindData} {api : DuckdbApi} {colIds : List Nat}
  {e : Expression} {col src : Nat}

/-- The server reads a `NOT IN`. -/
theorem notIn_answers (columnText : Nat → Bytes) (src : Nat) {values : List Value} (hne : values ≠ []) :
    S.Answers columnText { sql := notInSql (columnText src) values.length, params := values }
      fun row => (S.algebra.member (row src) values).not := by
  obtain ⟨c, cs, rfl⟩ := List.exists_cons_of_ne_nil hne
  have htext : notInSql (columnText src) (c :: cs).length =
      render columnText ((ParamTest.inList true c cs).tokens src) := by
    rw [render_inList, notInSql, List.length_cons, intercalate_placeholders]
    rfl
  rw [htext]
  exact .test (ParamTest.read_tokens src _) fun row => ParamTest.eval_cond S.algebra row src (.inList true c cs)

theorem operandOn_constants (row : Nat → Value) (vs : List Value) :
    (vs.map Expression.boundConstant).map (D.operandOn row) = vs := by
  rw [List.map_map]
  exact List.map_id vs

/-- DuckDB's truth value of a `NOT IN`. -/
theorem predicateTruth_notIn {values : List Value} (h : tryExtractNotIn api e = some (col, values))
    (row : Nat → Value) : D.predicateTruth row e = (D.algebra.member (row col) values).not := by
  obtain ⟨-, type, rfl | rfl⟩ := tryExtractNotIn_eq_some h
  · show (D.algebra.member (row col) ((values.map Expression.boundConstant).map (D.operandOn row))).not = _
    rw [operandOn_constants]
  · show (D.algebra.member (row col) ((values.map Expression.boundConstant).map (D.operandOn row))).not = _
    rw [operandOn_constants]

theorem constantsList_constants (vs : List Value) : Expression.constantsList (vs.map .boundConstant) = vs := by
  induction vs with
  | nil => rfl
  | cons v vs ih =>
      show v :: Expression.constantsList (vs.map .boundConstant) = _
      rw [ih]

theorem resolveSrcCol_getD (h : bind.resolveSrcCol colIds col = some src) : colIds.getD col 0 = src := by
  unfold FirebirdBindData.resolveSrcCol at h
  rw [List.getD_eq_getElem?_getD]
  cases hcol : colIds[col]? with
  | none =>
      rw [hcol] at h
      cases h
  | some src' =>
      simp only [hcol] at h
      split_ifs at h
      exact Option.some.inj h

theorem negated_shape (h : (tryExtractNotIn api e).isSome = true ∨ (tryExtractNotBoolColumn e).isSome = true) :
    ∃ children, e = .boundOperator .compareNotIn children ∨ e = .boundOperator .operatorNot children := by
  rcases h with h | h
  · obtain ⟨⟨col, values⟩, h⟩ := Option.isSome_iff_exists.mp h
    obtain ⟨-, type, h⟩ := tryExtractNotIn_eq_some h
    exact h.elim (fun h => ⟨_, .inl h⟩) fun h => ⟨_, .inr h⟩
  · obtain ⟨col, h⟩ := Option.isSome_iff_exists.mp h
    obtain ⟨type, h, -⟩ := tryExtractNotBoolColumn_eq_some h
    exact ⟨_, .inr h⟩

/-- **A pushed negation has the truth value of the filter**, `NULL` included, where the two sides agree on the
    equality of values. Its parameters are the constants of the filter. -/
theorem negated_answers {ep : ExtraPredicate}
    (heq : ∀ x c : Value, x.isNull = false → c.isNull = false → S.compare .eq x c = D.compare .eq x c)
    (h : pushdownOf api bind colIds e = .push ep)
    (hnegated : (tryExtractNotIn api e).isSome = true ∨ (tryExtractNotBoolColumn e).isSome = true) :
    ep.params = e.constants ∧ ∃ t, S.Answers bind.colExpr ep t ∧
      ∀ row : Nat → Value, t row = D.predicateTruth (fun col => row (colIds.getD col 0)) e := by
  -- no other shape is a negation
  have hother : tryExtractLikePrefix e = none ∧ noneShape e = none := by
    obtain ⟨children, rfl | rfl⟩ := negated_shape hnegated
    · exact ⟨rfl, rfl⟩
    · exact ⟨rfl, rfl⟩
  obtain ⟨hlike, hnone⟩ := hother
  rcases pushdownOf_shape h nofun with hpush | hpush | hpush | hpush
  · obtain ⟨_, _, _, hshape, -⟩ := likePushdown_push hpush
    rw [hlike] at hshape
    cases hshape
  · obtain ⟨_, _, _, _, _, hshape, -⟩ := nonePushdown_push hpush
    rw [hnone] at hshape
    cases hshape
  · obtain ⟨col, values, src, hshape, hsrc, -, rfl⟩ := notInPushdown_push hpush
    have hne : values ≠ [] := (tryExtractNotIn_eq_some hshape).1
    refine ⟨?_, _, notIn_answers bind.colExpr src hne, fun row => ?_⟩
    · obtain ⟨-, type, rfl | rfl⟩ := tryExtractNotIn_eq_some hshape
      · exact (constantsList_constants values).symm
      · show values = Expression.constantsList (values.map .boundConstant) ++ []
        rw [constantsList_constants, List.append_nil]
    · have hmember : S.algebra.member (row src) values = D.algebra.member (row src) values :=
        Algebra.member_congr (A := S.algebra) (B := D.algebra) rfl fun v _ hx hv => heq _ v hx hv
      rw [predicateTruth_notIn hshape, resolveSrcCol_getD hsrc, hmember]
  · obtain ⟨col, src, hshape, hsrc, hdec, rfl⟩ := notBoolPushdown_push hpush
    obtain ⟨type, rfl, -⟩ := tryExtractNotBoolColumn_eq_some hshape
    have htext : quoteIdent (bind.columnNames.getD src []) = bind.colExpr src := by
      unfold FirebirdBindData.colExpr columnSql
      rw [hdec]
      rfl
    rw [htext]
    refine ⟨rfl, _, .not src, fun row => ?_⟩
    show (row src).truth.not = (row (colIds.getD col 0)).truth.not
    rw [resolveSrcCol_getD hsrc]

end Truth

/-! ## The list -/

/-- What a filter that leaves the plan is owed by the predicate that is pushed for it. -/
structure PushedAs (S : Server) (D : ComplexDuckDb) (api : DuckdbApi) (bind : FirebirdBindData) (colIds : List Nat)
    (e : Expression) (ep : ExtraPredicate) : Prop where
  /-- It is on the column that the filter refers to; gated text is re-encoded. -/
  column : ∃ col type src, e.columnRefs = [(col, type)] ∧ bind.resolveSrcCol colIds col = some src ∧
    ep.On (bind.colPlaced src) ∧
    (bind.isNoneTextGated src = true →
      bind.nonePushdownActive = true ∧ nonePushdown bind colIds e = some (.push ep))
  /-- A negation has the same truth value. -/
  negated : (tryExtractNotIn api e).isSome = true ∨ (tryExtractNotBoolColumn e).isSome = true →
    ep.params = e.constants ∧ ∃ t, S.Answers bind.colExpr ep t ∧
      ∀ row : Nat → Value, t row = D.predicateTruth (fun col => row (colIds.getD col 0)) e

/-- Where each element gives at most one, the results are those of the elements that give one. -/
theorem forall₂_filterMap {α β : Type} {R : α → β → Prop} {f : α → Option β} {as : List α}
    (h : ∀ a ∈ as, ∀ b, f a = some b → R a b) :
    List.Forall₂ R (as.filter fun a => (f a).isSome) (as.filterMap f) := by
  induction as with
  | nil => exact .nil
  | cons a as ih =>
      obtain ⟨ha, has⟩ := List.forall_mem_cons.mp h
      cases hfa : f a with
      | none =>
          rw [List.filterMap_cons_none hfa, List.filter_cons_of_neg (by simp [hfa])]
          exact ih has
      | some b =>
          rw [List.filterMap_cons_some hfa, List.filter_cons_of_pos (by simp [hfa])]
          exact .cons (ha b hfa) (ih has)

/-- The reasons are of filters that stay. -/
theorem reasons_eq {api : DuckdbApi} {bind : FirebirdBindData} {colIds : List Nat} (filters : List Expression) :
    ∃ gated : List Expression,
      gated.Sublist (filters.filter fun e => (pushdownOf api bind colIds e).predicate.isNone) ∧
      (filters.filterMap fun e => (pushdownOf api bind colIds e).reason) = gated.map fun _ => "NONE_CHARSET" := by
  induction filters with
  | nil => exact ⟨[], .slnil, rfl⟩
  | cons e filters ih =>
      obtain ⟨gated, hsub, hreasons⟩ := ih
      rw [List.filter_cons, List.filterMap_cons]
      cases pushdownOf api bind colIds e with
      | keep => exact ⟨gated, hsub.cons e, hreasons⟩
      | gate => exact ⟨e :: gated, hsub.cons_cons e, congrArg _ hreasons⟩
      | push ep => exact ⟨gated, hsub, hreasons⟩

/-- **The hook splits the list without loss.** The filters it does not take stay, in order; each filter it takes
    comes back as a predicate, in order, on the column that the filter refers to, and a negation with the same
    truth value; and the reasons are of filters that stay. -/
theorem pushdownComplexFilter_split (S : Server) (D : ComplexDuckDb)
    (heq : ∀ x c : Value, x.isNull = false → c.isNull = false → S.compare .eq x c = D.compare .eq x c)
    (api : DuckdbApi) (bind : FirebirdBindData) (colIds : List Nat) (widen : Bool) (filters : List Expression)
    (htyped : ∀ e ∈ filters, bind.WellTyped colIds widen e) :
    ∃ (taken : Expression → Bool) (predicates : List ExtraPredicate) (gated : List Expression),
      pushdownComplexFilter api bind colIds filters =
        ({ bind with
            extraPredicates := bind.extraPredicates ++ predicates
            gatedComplexReasons := bind.gatedComplexReasons ++ gated.map fun _ => "NONE_CHARSET" },
          filters.filter fun e => !taken e) ∧
      List.Forall₂ (PushedAs S D api bind colIds) (filters.filter taken) predicates ∧
      gated.Sublist (filters.filter fun e => !taken e) := by
  -- a filter is taken if it becomes a predicate; the gated ones are among those that stay
  obtain ⟨gated, hsub, hreasons⟩ := @reasons_eq api bind colIds filters
  have hstays : (fun e => !(pushdownOf api bind colIds e).predicate.isSome) =
      fun e => (pushdownOf api bind colIds e).predicate.isNone := by
    funext e
    exact Option.not_isSome _
  refine ⟨fun e => (pushdownOf api bind colIds e).predicate.isSome,
    filters.filterMap fun e => (pushdownOf api bind colIds e).predicate, gated, ?_, ?_, ?_⟩
  · rw [pushdownComplexFilter_eq, hreasons, hstays]
  · refine forall₂_filterMap fun e he ep hep => ?_
    have hpush : pushdownOf api bind colIds e = .push ep := by
      unfold Pushdown.predicate at hep
      split at hep
      next h =>
        rw [← Option.some.inj hep]
        exact h
      · cases hep
    obtain ⟨col, type, src, hrefs, hsrc, hon⟩ := pushdownOf_on hpush
    exact ⟨⟨col, type, src, hrefs, hsrc, hon, pushdownOf_gated hpush (htyped e he) hrefs hsrc⟩,
      negated_answers heq hpush⟩
  · rw [hstays]
    exact hsub

/-- A table with a number, a flag, and a text of `CHARACTER SET NONE`. -/
def staffBind : FirebirdBindData where
  columnNames := [utf8 "ID", utf8 "ACTIVE", utf8 "CITY"]
  columnDescs := [{ name := utf8 "ID", sqltype := .long }, { name := utf8 "ACTIVE", sqltype := .boolean },
    { name := utf8 "CITY", sqltype := .varying, characterSetId := 0 }]

/-- `ID NOT IN (1, 2)`, `CITY LIKE 'S%'` and `NOT ACTIVE`, on the projected columns `ACTIVE`, `ID` and `CITY`. -/
def staffFilters : List Expression :=
  [.boundOperator .compareNotIn [.boundColumnRef 1 ⟨.integer, 0, 0⟩, .boundConstant (.integer 1),
      .boundConstant (.integer 2)],
    .boundFunction "~~" [.boundColumnRef 2 ⟨.varchar, 0, 0⟩, .boundConstant (.varchar "S%")],
    .boundOperator .operatorNot [.boundColumnRef 0 ⟨.boolean, 0, 0⟩]]

/-- DuckDB on points in time and numbers. -/
def calendarComplexDuckDb : ComplexDuckDb where
  toDuckDb := calendarDuckDb
  scalarOn _ _ := .integer 0
  predicateOn _ _ := .unknown

/-- The `LIKE` stays, with a reason. -/
theorem pushdownComplexFilter_split_staff :
    ∃ (taken : Expression → Bool) (predicates : List ExtraPredicate) (gated : List Expression),
      pushdownComplexFilter .v1_5 staffBind [1, 0, 2] staffFilters =
        ({ staffBind with
            extraPredicates := staffBind.extraPredicates ++ predicates
            gatedComplexReasons := staffBind.gatedComplexReasons ++ gated.map fun _ => "NONE_CHARSET" },
          staffFilters.filter fun e => !taken e) ∧
      List.Forall₂ (PushedAs calendarServer calendarComplexDuckDb .v1_5 staffBind [1, 0, 2])
        (staffFilters.filter taken) predicates ∧
      gated.Sublist (staffFilters.filter fun e => !taken e) :=
  pushdownComplexFilter_split calendarServer calendarComplexDuckDb (fun _ _ _ _ => rfl) .v1_5 staffBind [1, 0, 2]
    false staffFilters (by
      have hrefs : ∀ e ∈ staffFilters, ∀ ref ∈ e.columnRefs, ∀ src,
          staffBind.resolveSrcCol [1, 0, 2] ref.1 = some src → ∀ desc ∈ staffBind.columnDescs[src]?,
            ref.2 = columnType desc staffBind.noneEncoding false := by decide
      exact fun e he ref href src hsrc desc hdesc => .inl (hrefs e he ref href src hsrc desc hdesc))

end FirebirdScan
