import FirebirdScan.Query.Text
import Mathlib.Data.List.Forall2

/-!
# `Query.Statement` — the statement `Build` writes, read back

A statement is as intended if the server's lexer and parser find in it the projection, the table, the pushed
filters as conditions of the `WHERE` clause with the extra predicate behind them, and the order
(`intended`), and if the parameters are the constants of these conditions in the order of their placeholders.

The builder looks for ` WHERE ` in its own text to choose between `WHERE` and `AND`, and a name may contain
that (`mentions_selectClause`). So the statement is as intended exactly when there is no extra predicate, or a
filter is pushed, or no name imitates the keyword (`build_intended_iff`).
-/

namespace FirebirdScan

open SqlText SqlText.Select

/-! ## Names that imitate a keyword -/

section Imitation

variable {w : Bytes} {q : UInt8}

/-- What does not contain a byte does not reach across it. -/
theorem infix_append_cons (hq : q ∉ w) {xs ys : Bytes} : w <:+: xs ++ q :: ys ↔ w <:+: xs ∨ w <:+: ys := by
  constructor
  · rintro ⟨before, after, h⟩
    rw [List.append_assoc] at h
    rcases List.append_eq_append_iff.mp h with ⟨as, rfl, hright⟩ | ⟨bs, rfl, hright⟩
    · -- `w` begins within `xs`
      rcases List.append_eq_append_iff.mp hright with ⟨cs, rfl, -⟩ | ⟨cs, hw, htail⟩
      · exact .inl ⟨before, cs, List.append_assoc _ _ _⟩
      · rcases cs with _ | ⟨c, cs⟩
        · rw [List.append_nil] at hw
          exact .inl ⟨before, [], by rw [hw, List.append_nil]⟩
        · obtain ⟨rfl, -⟩ := List.cons.inj htail
          exact absurd (hw ▸ List.mem_append_right _ List.mem_cons_self) hq
    · -- `w` begins behind `xs`
      rcases bs with _ | ⟨b, bs⟩
      · rcases w with _ | ⟨c, w⟩
        · exact .inl (List.nil_infix)
        · obtain ⟨rfl, -⟩ := List.cons.inj hright
          exact absurd List.mem_cons_self hq
      · obtain ⟨-, rfl⟩ := List.cons.inj hright
        exact .inr ⟨bs, after, List.append_assoc _ _ _⟩
  · rintro (⟨before, after, rfl⟩ | ⟨before, after, rfl⟩)
    · exact ⟨before, after ++ q :: ys, by simp only [List.append_assoc]⟩
    · exact ⟨xs ++ q :: before, after, by simp only [List.append_assoc, List.cons_append]⟩

/-- Doubling the quotes of a name neither adds nor removes an occurrence. -/
theorem infix_doubled (hq : q ∉ w) (hne : w ≠ []) (pre name : Bytes) :
    w <:+: pre ++ (name.flatMap fun c => if c = q then [q, c] else [c]) ↔ w <:+: pre ++ name := by
  have hnil : ¬w <:+: [] := fun h => hne (List.infix_nil.mp h)
  induction name generalizing pre with
  | nil => exact Iff.rfl
  | cons c name ih =>
      by_cases hc : c = q
      · subst hc
        have hrest := ih []
        rw [List.nil_append, List.nil_append] at hrest
        have hdouble : w <:+: c :: (name.flatMap fun d => if d = c then [c, d] else [d]) ↔ w <:+: name := by
          have hskip := @infix_append_cons w c hq [] (name.flatMap fun d => if d = c then [c, d] else [d])
          rw [List.nil_append] at hskip
          exact hskip.trans ((or_iff_right hnil).trans hrest)
        rw [List.flatMap_cons, if_pos rfl, List.cons_append, List.cons_append, List.nil_append,
          infix_append_cons hq, infix_append_cons hq, hdouble]
      · have hmove := ih (pre ++ [c])
        rw [List.append_assoc, List.append_assoc] at hmove
        rw [List.flatMap_cons, if_neg hc]
        exact hmove

end Imitation

/-- The text contains what the builder searches for. -/
def Mentions (s : Bytes) : Prop := utf8 " WHERE " <:+: s

instance (s : Bytes) : Decidable (Mentions s) := inferInstanceAs (Decidable (_ <:+: _))

/-- Without a `W` there is no occurrence. -/
theorem not_mentions {s : Bytes} (h : 0x57 ∉ s) : ¬Mentions s :=
  fun hs => h (hs.subset (by decide))

/-- A quoted name, behind a text without a `W`. -/
theorem mentions_quoteIdent {pre : Bytes} (hpre : 0x57 ∉ pre) (name rest : Bytes) :
    Mentions (pre ++ (quoteIdent name ++ rest)) ↔ Mentions name ∨ Mentions rest := by
  have hq : (0x22 : UInt8) ∉ utf8 " WHERE " := by decide
  have hdoubled := infix_doubled hq (by decide) [] name
  rw [List.nil_append, List.nil_append] at hdoubled
  have htext : pre ++ (quoteIdent name ++ rest) =
      pre ++ 0x22 :: ((name.flatMap fun c => if c = 0x22 then [0x22, c] else [c]) ++ 0x22 :: rest) := by
    simp only [quoteIdent, quoted, List.append_assoc, List.cons_append, List.nil_append]
  rw [htext]
  have hno : ¬utf8 " WHERE " <:+: pre := not_mentions hpre
  unfold Mentions
  rw [infix_append_cons hq, infix_append_cons hq, hdoubled, or_iff_right hno]

namespace BuildArgs

variable (a : BuildArgs)

/-- The name of a source column. -/
def columnName (cid : Nat) : Bytes := a.allColumnNames.getD cid []

/-- The source columns among the column ids; the others ask for the row id. -/
def sourceColumns : List Nat := a.columnIds.filter (· ≠ columnIdentifierRowId)

/-- The names in front of the `WHERE` clause. -/
def names : List Bytes := a.sourceColumns.map a.columnName ++ [a.tableName]

variable {a}

/-- One item of the `SELECT` list: its name may have an occurrence, if it has a name, and the text around the
    name has none. -/
theorem mentions_projection {pre : Bytes} (hpre : 0x57 ∉ pre) (cid : Nat) :
    ∃ post, 0x57 ∉ post ∧ ∀ rest, Mentions (pre ++ (a.projection cid ++ rest)) ↔
      (cid ≠ columnIdentifierRowId ∧ Mentions (a.columnName cid)) ∨ Mentions (post ++ rest) := by
  unfold projection
  by_cases hrow : cid = columnIdentifierRowId
  · refine ⟨pre ++ utf8 "CAST(NULL AS BIGINT)", List.not_mem_append hpre (by decide), fun rest => ?_⟩
    rw [if_pos hrow, List.append_assoc, or_iff_right fun h => h.1 hrow]
  · rw [if_neg hrow, columnText, columnSql]
    split_ifs with hdec
    · refine ⟨utf8 " AS VARCHAR(64))", by decide, fun rest => ?_⟩
      have hname := mentions_quoteIdent (List.not_mem_append hpre (by decide : 0x57 ∉ utf8 "CAST("))
        (a.allColumnNames.getD cid []) (utf8 " AS VARCHAR(64))" ++ rest)
      rw [List.append_assoc] at hname
      rw [List.append_assoc, List.append_assoc, hname, and_iff_right hrow]
      rfl
    · refine ⟨[], List.not_mem_nil, fun rest => ?_⟩
      rw [mentions_quoteIdent hpre, and_iff_right hrow, List.nil_append]
      rfl

/-- The `SELECT` list and the table. -/
theorem mentions_items (cid : Nat) (cids : List Nat) {pre : Bytes} (hpre : 0x57 ∉ pre) :
    Mentions (pre ++ ((utf8 ", ").intercalate ((cid :: cids).map a.projection) ++
        (utf8 " FROM " ++ quoteIdent a.tableName))) ↔
      (∃ id ∈ cid :: cids, id ≠ columnIdentifierRowId ∧ Mentions (a.columnName id)) ∨ Mentions a.tableName := by
  induction cids generalizing cid pre with
  | nil =>
      obtain ⟨post, hpost, hitem⟩ := mentions_projection (a := a) hpre cid
      have hfrom := mentions_quoteIdent (List.not_mem_append hpost (by decide : 0x57 ∉ utf8 " FROM "))
        a.tableName []
      rw [List.append_nil, List.append_assoc, or_iff_left (not_mentions List.not_mem_nil)] at hfrom
      rw [List.map_cons, List.map_nil, List.intercalate_singleton, hitem, hfrom]
      simp only [List.mem_singleton, exists_eq_left]
  | cons next cids ih =>
      obtain ⟨post, hpost, hitem⟩ := mentions_projection (a := a) hpre cid
      have hnext := ih next (List.not_mem_append hpost (by decide : 0x57 ∉ utf8 ", "))
      rw [List.append_assoc] at hnext
      rw [List.map_cons, List.map_cons, List.intercalate_cons_cons, ← List.map_cons, List.append_assoc,
        List.append_assoc, hitem, hnext, ← or_assoc]
      simp only [List.mem_cons, exists_eq_or_imp]

/-- **Where the builder finds ` WHERE `** before it has written one: in a name. -/
theorem mentions_selectClause : Mentions a.selectClause ↔ ∃ name ∈ a.names, Mentions name := by
  have hnames : (∃ name ∈ a.names, Mentions name) ↔
      (∃ id ∈ a.columnIds, id ≠ columnIdentifierRowId ∧ Mentions (a.columnName id)) ∨ Mentions a.tableName := by
    simp only [names, sourceColumns, List.mem_append, List.mem_map, List.mem_filter, List.mem_singleton,
      decide_eq_true_eq, or_and_right, exists_or, exists_eq_left]
    refine or_congr_left ⟨?_, ?_⟩
    · rintro ⟨-, ⟨id, ⟨hmem, hne⟩, rfl⟩, h⟩
      exact ⟨id, hmem, hne, h⟩
    · rintro ⟨id, hmem, hne, h⟩
      exact ⟨_, ⟨id, ⟨hmem, hne⟩, rfl⟩, h⟩
  rw [hnames, selectClause]
  rcases hids : a.columnIds with _ | ⟨cid, cids⟩
  · have hstar := mentions_quoteIdent (by decide : 0x57 ∉ utf8 "SELECT " ++ utf8 "*" ++ utf8 " FROM ")
      a.tableName []
    rw [List.append_nil, or_iff_left (not_mentions List.not_mem_nil)] at hstar
    rw [if_pos rfl, hstar]
    simp only [List.not_mem_nil, false_and, exists_false, false_or]
  · have hitems := mentions_items (a := a) cid cids (by decide : 0x57 ∉ utf8 "SELECT ")
    rw [if_neg (List.cons_ne_nil cid cids), List.append_assoc, List.append_assoc]
    exact hitems

end BuildArgs

/-! ## The intended statement -/

/-- A condition in the text. -/
def parenText (frag : Bytes) : Bytes := utf8 "(" ++ frag ++ utf8 ")"

/-- The lexemes of a column expression. -/
def columnLexemes (name : Bytes) (decfloat : Bool) : List Lexeme :=
  if decfloat then
    [keyword "CAST", lparen, .ident name, keyword "AS", keyword "VARCHAR", lparen, .word (utf8 "64"), rparen,
      rparen]
  else [.ident name]

theorem columnSql_fragment (name : Bytes) (decfloat : Bool) :
    Fragment (columnSql name decfloat) ((columnLexemes name decfloat).map .inl) := by
  cases decfloat with
  | false => exact quoteIdent_fragment name
  | true =>
      have hcast : Fragment (utf8 "CAST") (words (utf8 "CAST")) :=
        Fragment.words_eq [keyword "CAST"] (by decide) (by decide) (by decide)
      have htype : Fragment (utf8 " AS VARCHAR(64)") (words (utf8 " AS VARCHAR(64)")) :=
        Fragment.words_eq [keyword "AS", keyword "VARCHAR", lparen, .word (utf8 "64"), rparen]
          (by decide) (by decide) (by decide)
      have harg := (quoteIdent_fragment name).append htype (by decide)
      have hopen : utf8 "CAST(" = utf8 "CAST" ++ utf8 "(" := by decide
      have hclose : utf8 " AS VARCHAR(64))" = utf8 " AS VARCHAR(64)" ++ utf8 ")" := by decide
      have htext : columnSql name true =
          utf8 "CAST" ++ (utf8 "(" ++ (quoteIdent name ++ utf8 " AS VARCHAR(64)") ++ utf8 ")") := by
        rw [columnSql, if_pos rfl, hopen, hclose]
        simp only [List.append_assoc]
      rw [htext]
      exact hcast.call harg

theorem columnLexemes_isItem (name : Bytes) (decfloat : Bool) : IsItem (columnLexemes name decfloat) := by
  have hident (n : Bytes) : IsItem [.ident n] := isItem_single nofun nofun rfl
  cases decfloat with
  | false => exact hident name
  | true =>
      have hcast : IsItem [keyword "CAST"] := isItem_single (by decide) (by decide) (by decide)
      exact hcast.append (isItem_paren [.ident name, keyword "AS", keyword "VARCHAR", lparen,
        .word (utf8 "64"), rparen] rfl)

namespace BuildArgs

variable (a : BuildArgs)

/-- The lexemes of the column a filter is on. -/
def columnPlaced (cid : Nat) : List Placed :=
  (columnLexemes (a.columnName cid) ((a.desc cid).any fun d => isDecfloatType d.sqltype)).map .inl

/-- The lexemes of an item. -/
def item (cid : Nat) : List Lexeme :=
  if cid = columnIdentifierRowId then
    [keyword "CAST", lparen, keyword "NULL", keyword "AS", keyword "BIGINT", rparen]
  else columnLexemes (a.columnName cid) ((a.desc cid).any fun d => isDecfloatType d.sqltype)

/-- The items, one for each column id; or all columns. -/
def items : List (List Lexeme) :=
  if a.columnIds = [] then [[.symbol 0x2A]] else a.columnIds.map a.item

/-- The builder writes the filter: its column may be pushed, and its shape has a translation. -/
def pushes (api : DuckdbApi) (entry : Nat × TableFilter) : Bool :=
  match a.sourceColumn entry.1 with
  | .error _ => false
  | .ok src =>
      firebirdScanSupportsPushdownType (a.columnDescs.getD []) a.noneEncoding src && entry.2.pushable api

/-- The condition of a filter. -/
def condition (entry : Nat × TableFilter) : List Placed :=
  entry.2.placed (a.columnPlaced (a.columnIds.getD entry.1 0))

/-- The conditions of the filters that are pushed, in their order. -/
def conditions (api : DuckdbApi) (filters : List (Nat × TableFilter)) : List (List Placed) :=
  (filters.filter (a.pushes api)).map a.condition

/-- The row bounds. -/
def bounds (limit : UInt64) : List Lexeme :=
  match a.offset with
  | some offset => [.word (idxText (offset + 1)), .word (idxText (offset + limit))]
  | none => [.word (idxText limit)]

/-- The positions of the filters that are left residual, from position `k` on. -/
def residuals (api : DuckdbApi) (k : Nat) (filters : List (Nat × TableFilter)) : List Nat :=
  ((filters.zipIdx k).filter fun e => !a.pushes api e.1).map Prod.snd

/-- What a statement says, with the conditions `extra` behind those of the filters, and `order` as the order
    expression. -/
def intended (api : DuckdbApi) (filters : List (Nat × TableFilter)) (extra : List (List Placed))
    (order : List Lexeme) : Select where
  items := a.items
  table := a.tableName
  conditions := (a.conditions api filters ++ extra).map lexemes
  order := a.limit.map fun limit => (order, a.bounds limit)

variable {a} {api : DuckdbApi}

/-! ## The `SELECT` list -/

theorem columnText_fragment (cid : Nat) : Fragment (a.columnText cid) (a.columnPlaced cid) :=
  columnSql_fragment _ _

theorem projection_fragment (cid : Nat) : Fragment (a.projection cid) ((a.item cid).map .inl) := by
  unfold projection item
  split_ifs
  · exact Fragment.words_eq [keyword "CAST", lparen, keyword "NULL", keyword "AS", keyword "BIGINT", rparen]
      (by decide) (by decide) (by decide)
  · exact columnText_fragment cid

theorem item_isItem (cid : Nat) : IsItem (a.item cid) := by
  unfold item
  split_ifs
  · have hcast : IsItem [keyword "CAST"] := isItem_single (by decide) (by decide) (by decide)
    exact hcast.append (isItem_paren [keyword "NULL", keyword "AS", keyword "BIGINT"] (by decide))
  · exact columnLexemes_isItem _ _

theorem projections_fragment (cid : Nat) (cids : List Nat) :
    Fragment ((utf8 ", ").intercalate ((cid :: cids).map a.projection))
      ((itemsLexemes (a.item cid) (cids.map a.item)).map .inl) := by
  induction cids generalizing cid with
  | nil =>
      rw [List.map_cons, List.map_nil, List.intercalate_singleton]
      exact projection_fragment cid
  | cons next cids ih =>
      have hitems : itemsLexemes (a.item cid) ((next :: cids).map a.item) =
          a.item cid ++ ([comma] ++ itemsLexemes (a.item next) (cids.map a.item)) := rfl
      have htext : (utf8 ", ").intercalate ((cid :: next :: cids).map a.projection) =
          a.projection cid ++ (utf8 ", " ++ (utf8 ", ").intercalate ((next :: cids).map a.projection)) := by
        rw [List.map_cons, List.map_cons, List.intercalate_cons_cons, ← List.map_cons, List.append_assoc]
      rw [htext, hitems, List.map_append, List.map_append]
      exact (projection_fragment cid).between comma_glue (by decide) (ih next)

/-- The clauses in front of `WHERE`, and the lexemes of the items. -/
theorem selectClause_fragment : ∃ item items, a.items = item :: items ∧ (∀ i ∈ item :: items, IsItem i) ∧
    Fragment a.selectClause ((keyword "SELECT" ::
      (itemsLexemes item items ++ [keyword "FROM", .ident a.tableName])).map .inl) := by
  have hselect : Closed (utf8 "SELECT ") [keyword "SELECT"] := by decide
  have hfrom : Glue (utf8 " FROM ") [keyword "FROM"] := by decide
  -- a list of items, and the text that the builder writes for it
  have hclause {text : Bytes} {ts : List Lexeme} (h : Fragment text (ts.map .inl)) :
      Fragment (utf8 "SELECT " ++ text ++ utf8 " FROM " ++ quoteIdent a.tableName)
        ((keyword "SELECT" :: (ts ++ [keyword "FROM", .ident a.tableName])).map .inl) := by
    have hall := hselect.append (h.between hfrom (by decide) (quoteIdent_fragment a.tableName))
    rw [List.append_assoc, List.append_assoc, List.map_cons, List.map_append]
    exact hall
  unfold selectClause items
  rcases hids : a.columnIds with _ | ⟨cid, cids⟩
  · refine ⟨[.symbol 0x2A], [], if_pos rfl, ?_, ?_⟩
    · intro i hi
      obtain rfl := List.mem_singleton.mp hi
      exact isItem_single (by decide) (by decide) (by decide)
    · rw [if_pos rfl]
      exact hclause (Fragment.words_eq [.symbol 0x2A] (by decide) (by decide) (by decide))
  · refine ⟨a.item cid, cids.map a.item, if_neg (List.cons_ne_nil _ _), ?_, ?_⟩
    · intro i hi
      obtain ⟨id, -, rfl⟩ := List.mem_map.mp (List.map_cons ▸ hi : i ∈ (cid :: cids).map a.item)
      exact item_isItem id
    · rw [if_neg (List.cons_ne_nil _ _)]
      exact hclause (projections_fragment cid cids)

/-! ## The filter loop -/

/-- **A filter that is pushed** has its condition's lexemes, and adds its constants to the parameters. -/
theorem pushFilter_pushes {entry : Nat × TableFilter} (h : a.pushes api entry = true) (params : List Value) :
    ∃ frag, a.pushFilter api params entry = .ok (frag, params ++ constants (a.condition entry)) ∧
      Fragment frag (a.condition entry) := by
  unfold pushes at h
  cases hsrc : a.sourceColumn entry.1 with
  | error reason =>
      rw [hsrc] at h
      cases h
  | ok src =>
      rw [hsrc] at h
      obtain ⟨hsupported, hshape⟩ := (Bool.and_eq_true _ _).mp h
      have hopen := gated_eq_not_supported (a := a) src
      rw [hsupported, Bool.not_true] at hopen
      have hsome := translateFilter_isSome (a.columnText src) api entry.2 params
      rw [hshape] at hsome
      obtain ⟨⟨frag, params'⟩, htranslate⟩ := Option.isSome_iff_exists.mp hsome
      have hcondition : a.condition entry = entry.2.placed (a.columnPlaced src) := by
        rw [condition, List.getD_eq_getElem?_getD, sourceColumn_ok hsrc, Option.getD_some]
      obtain ⟨hfrag, rfl⟩ := translateFilter_writes (columnText_fragment src) (constants_inl _) entry.2 htranslate
      refine ⟨frag, ?_, hcondition ▸ hfrag⟩
      rw [pushFilter, hsrc, hcondition]
      simp only [hopen, Bool.false_eq_true, if_false, htranslate]

/-- One that is not pushed is left residual, for a reason. -/
theorem pushFilter_residual {entry : Nat × TableFilter} (h : a.pushes api entry = false) (params : List Value) :
    ∃ reason, a.pushFilter api params entry = .error reason := by
  unfold pushes at h
  rw [pushFilter]
  cases hsrc : a.sourceColumn entry.1 with
  | error reason => exact ⟨reason, rfl⟩
  | ok src =>
      rw [hsrc] at h
      have hgate := gated_eq_not_supported (a := a) src
      cases hsupported : firebirdScanSupportsPushdownType (a.columnDescs.getD []) a.noneEncoding src with
      | false =>
          rw [hsupported, Bool.not_false] at hgate
          exact ⟨_, if_pos hgate⟩
      | true =>
          rw [hsupported, Bool.not_true] at hgate
          have hshape : entry.2.pushable api = false := by
            simp only [hsupported, Bool.true_and] at h
            exact h
          have hnone := translateFilter_isSome (a.columnText src) api entry.2 params
          rw [hshape, Option.isSome_eq_false_iff, Option.isNone_iff_eq_none] at hnone
          refine ⟨"UNSUPPORTED_OP", ?_⟩
          simp only [hgate, Bool.false_eq_true, if_false, hnone]

section Loop

variable {entry : Nat × TableFilter} (filters : List (Nat × TableFilter))

theorem conditions_cons_pushed (h : a.pushes api entry = true) :
    a.conditions api (entry :: filters) = a.condition entry :: a.conditions api filters := by
  rw [conditions, List.filter_cons_of_pos h, List.map_cons]
  rfl

theorem conditions_cons_residual (h : a.pushes api entry = false) :
    a.conditions api (entry :: filters) = a.conditions api filters := by
  rw [conditions, List.filter_cons_of_neg (by rw [h]; decide)]
  rfl

theorem residuals_cons_pushed (h : a.pushes api entry = true) (k : Nat) :
    a.residuals api k (entry :: filters) = a.residuals api (k + 1) filters := by
  rw [residuals, List.zipIdx_cons, List.filter_cons_of_neg (by simp only [h]; decide)]
  rfl

theorem residuals_cons_residual (h : a.pushes api entry = false) (k : Nat) :
    a.residuals api k (entry :: filters) = k :: a.residuals api (k + 1) filters := by
  rw [residuals, List.zipIdx_cons, List.filter_cons_of_pos (by simp only [h]; decide)]
  rfl

end Loop

/-- **The filter loop**: each filter is pushed or residual, and the conditions of those that are pushed come
    in order, with their constants. -/
theorem foldl_filterStep_eq (filters : List (Nat × TableFilter)) (st : FilterLoop) :
    ∃ frags reasons, List.Forall₂ Fragment frags (a.conditions api filters) ∧
      reasons.length = (a.residuals api st.filterIdx filters).length ∧
      filters.foldl (filterStep api a) st =
        { filterIdx := st.filterIdx + filters.length
          conds := st.conds ++ frags.map parenText
          residualFilterIndices := st.residualFilterIndices ++ a.residuals api st.filterIdx filters
          residualFilterReasons := st.residualFilterReasons ++ reasons
          params := st.params ++ (a.conditions api filters).flatMap constants
          pushedFilterSql := st.pushedFilterSql ++ frags } := by
  induction filters generalizing st with
  | nil =>
      refine ⟨[], [], .nil, rfl, ?_⟩
      simp only [List.foldl_nil, conditions, residuals, List.filter_nil, List.map_nil, List.flatMap_nil,
        List.zipIdx_nil, List.append_nil, List.length_nil, Nat.add_zero]
  | cons entry filters ih =>
      obtain ⟨frags, reasons, hfrags, hlength, hrest⟩ := ih (filterStep api a st entry)
      cases hpush : a.pushes api entry with
      | true =>
          -- one more fragment, with its constants
          obtain ⟨frag, hok, hfrag⟩ := pushFilter_pushes hpush st.params
          have hconditions := conditions_cons_pushed filters hpush
          have hresiduals := residuals_cons_pushed filters hpush st.filterIdx
          have hidx : (filterStep api a st entry).filterIdx = st.filterIdx + 1 := by rw [filterStep, hok]
          rw [hidx] at hlength
          refine ⟨frag :: frags, reasons, ?_, by rw [hresiduals]; exact hlength, ?_⟩
          · rw [hconditions]
            exact .cons hfrag hfrags
          · rw [List.foldl_cons, hrest, hconditions, hresiduals, filterStep, hok]
            simp only [List.map_cons, List.flatMap_cons, List.append_assoc, List.cons_append, List.nil_append,
              List.length_cons, parenText, FilterLoop.mk.injEq, and_self, and_true]
            omega
      | false =>
          -- one more index, with its reason
          obtain ⟨reason, herror⟩ := pushFilter_residual hpush st.params
          have hconditions := conditions_cons_residual filters hpush
          have hresiduals := residuals_cons_residual filters hpush st.filterIdx
          have hidx : (filterStep api a st entry).filterIdx = st.filterIdx + 1 := by rw [filterStep, herror]
          rw [hidx] at hlength
          refine ⟨frags, reason :: reasons, ?_, ?_, ?_⟩
          · rw [hconditions]
            exact hfrags
          · rw [hresiduals, List.length_cons, List.length_cons, hlength]
          · rw [List.foldl_cons, hrest, hconditions, hresiduals, filterStep, herror]
            simp only [List.append_assoc, List.cons_append, List.nil_append, List.length_cons,
              FilterLoop.mk.injEq, and_self, and_true]
            omega

end BuildArgs

/-! ## The clauses behind the table -/

/-- The `WHERE` clause of some conditions. -/
def wherePlaced (cs : List (List Placed)) : List Placed :=
  if cs = [] then [] else .inl (keyword "WHERE") :: joinPlaced (keyword "AND") cs

theorem lexemes_joinPlaced (c : List Placed) (cs : List (List Placed)) :
    lexemes (joinPlaced (keyword "AND") (c :: cs)) = conditionsLexemes (lexemes c) (cs.map lexemes) := by
  induction cs generalizing c with
  | nil => exact lexemes_paren c
  | cons next cs ih =>
      have hjoin : joinPlaced (keyword "AND") (c :: next :: cs) =
          paren c ++ .inl (keyword "AND") :: joinPlaced (keyword "AND") (next :: cs) := rfl
      have hcons : lexemes (.inl (keyword "AND") :: joinPlaced (keyword "AND") (next :: cs)) =
          keyword "AND" :: lexemes (joinPlaced (keyword "AND") (next :: cs)) := rfl
      rw [hjoin, lexemes_append, lexemes_paren, hcons, ih, List.append_assoc]
      rfl

theorem lexemes_wherePlaced (cs : List (List Placed)) : lexemes (wherePlaced cs) = whereLexemes (cs.map lexemes) := by
  cases cs with
  | nil => rfl
  | cons c cs =>
      have hcons : lexemes (wherePlaced (c :: cs)) =
          keyword "WHERE" :: lexemes (joinPlaced (keyword "AND") (c :: cs)) := rfl
      rw [hcons, lexemes_joinPlaced]
      rfl

theorem constants_joinPlaced (t : Lexeme) (cs : List (List Placed)) :
    constants (joinPlaced t cs) = cs.flatMap constants := by
  cases cs with
  | nil => rfl
  | cons c cs =>
      induction cs generalizing c with
      | nil => exact (constants_paren c).trans (List.append_nil _).symm
      | cons next cs ih =>
          have hjoin : joinPlaced t (c :: next :: cs) = paren c ++ .inl t :: joinPlaced t (next :: cs) := rfl
          have hcons : constants (.inl t :: joinPlaced t (next :: cs)) = constants (joinPlaced t (next :: cs)) := rfl
          rw [hjoin, constants_append, constants_paren, hcons, ih]
          rfl

theorem constants_wherePlaced (cs : List (List Placed)) : constants (wherePlaced cs) = cs.flatMap constants := by
  unfold wherePlaced
  split_ifs with hne
  · rw [hne]
    rfl
  · exact constants_joinPlaced _ cs

/-- Conditions in parentheses, joined by ` AND `. -/
theorem conditions_fragment {frag : Bytes} {frags : List Bytes} {c : List Placed} {cs : List (List Placed)}
    (hfrag : Fragment frag c) (h : List.Forall₂ Fragment frags cs) :
    Fragment ((utf8 " AND ").intercalate ((frag :: frags).map parenText)) (joinPlaced (keyword "AND") (c :: cs)) := by
  induction h generalizing frag c with
  | nil =>
      have hjoin : joinPlaced (keyword "AND") [c] = paren c := rfl
      rw [List.map_cons, List.map_nil, List.intercalate_singleton, hjoin]
      exact hfrag.paren
  | @cons next d frags cs hnext _ ih =>
      have hjoin : joinPlaced (keyword "AND") (c :: d :: cs) =
          paren c ++ ([keyword "AND"].map .inl ++ joinPlaced (keyword "AND") (d :: cs)) := rfl
      rw [List.map_cons, List.map_cons, List.intercalate_cons_cons, ← List.map_cons, List.append_assoc, hjoin]
      exact hfrag.paren.between and_glue (by decide) (ih hnext)

theorem whereClause_apart (conds : List Bytes) : Apart (whereClause conds) := by
  unfold whereClause
  split_ifs
  · exact nofun
  · exact Apart.front (by decide) (by decide) _

theorem partitionClause_apart (sql extraPredicate : Bytes) : Apart (partitionClause sql extraPredicate) := by
  unfold partitionClause
  split_ifs
  · exact nofun
  · rw [List.append_assoc, List.append_assoc]
    exact Apart.front (by decide) (by decide) _
  · rw [List.append_assoc, List.append_assoc]
    exact Apart.front (by decide) (by decide) _

theorem rowsClause_apart (a : BuildArgs) : Apart (rowsClause a) := by
  unfold rowsClause
  cases a.limit with
  | none => exact nofun
  | some limit =>
      show Apart (utf8 " ORDER BY " ++ a.paginationOrderBy ++ _)
      rw [List.append_assoc]
      exact Apart.front (by decide) (by decide) _

theorem whereClause_fragment {frags : List Bytes} {cs : List (List Placed)} (h : List.Forall₂ Fragment frags cs) :
    Fragment (whereClause (frags.map parenText)) (wherePlaced cs) := by
  have hwhere : Glue (utf8 " WHERE ") [keyword "WHERE"] := by decide
  cases h with
  | nil => exact ⟨rfl, rfl, List.not_mem_nil⟩
  | cons hfrag hrest => exact hwhere.append (conditions_fragment hfrag hrest)

/-- An order expression, as the caller has to give it. -/
def OrderText (s : Bytes) (order : List Lexeme) : Prop := Fragment s (order.map .inl) ∧ IsOrder order

theorem idxText_fragment (n : UInt64) : Fragment (idxText n) ([Lexeme.word (idxText n)].map .inl) :=
  digits_fragment n.toNat

/-- The end of the statement. -/
theorem rowsClause_fragment {a : BuildArgs} {order : List Lexeme}
    (horder : a.limit.isSome = true → OrderText a.paginationOrderBy order) :
    Fragment (rowsClause a) ((orderLexemes (a.limit.map fun limit => (order, a.bounds limit))).map .inl) ∧
      IsOrderClause (a.limit.map fun limit => (order, a.bounds limit)) := by
  have hby : Glue (utf8 " ORDER BY ") [keyword "ORDER", keyword "BY"] := by decide
  unfold rowsClause
  cases hlimit : a.limit with
  | none => exact ⟨⟨rfl, rfl, List.not_mem_nil⟩, trivial⟩
  | some limit =>
      obtain ⟨hfrag, hread⟩ := horder (by rw [hlimit]; rfl)
      unfold BuildArgs.bounds
      cases hoffset : a.offset with
      | none =>
          have htail := hfrag.between rows_glue (by decide) (idxText_fragment limit)
          have hall := hby.append htail
          rw [← List.append_assoc] at hall
          refine ⟨?_, hread, .inl ⟨_, rfl⟩⟩
          simp only [Option.map_some, orderLexemes, List.map_cons, List.map_append, List.cons_append]
          exact hall
      | some offset =>
          have hbounds := (idxText_fragment (offset + 1)).between to_glue (by decide)
            (idxText_fragment (offset + limit))
          have hall := hby.append (hfrag.between rows_glue (by decide) hbounds)
          rw [← List.append_assoc] at hall
          refine ⟨?_, hread, .inr ⟨_, _, rfl⟩⟩
          simp only [Option.map_some, orderLexemes, List.map_cons, List.map_append, List.cons_append,
            List.append_assoc] at hall ⊢
          exact hall

/-! ## The statement -/

/-- The statement is as intended: it is read as `intended`, its placeholders are as many as the parameters,
    and the parameters are the constants of its conditions, one after the other. Each filter is either among
    the pushed ones or among the residual ones, and each residual one has a reason. -/
structure Intended (api : DuckdbApi) (a : BuildArgs) (filters : List (Nat × TableFilter))
    (extra : List (List Placed)) (order : List Lexeme) (r : BuildResult) : Prop where
  parses : ∃ ts, lex r.sql = some ts ∧ Select.parse ts = some (a.intended api filters extra order) ∧
    ts.count .param = r.params.length
  params : r.params = (a.conditions api filters ++ extra).flatMap constants
  pushed : List.Forall₂ Fragment r.pushedFilterSql (a.conditions api filters)
  residual : r.residualFilterIndices = a.residuals api 0 filters
  reasons : r.residualFilterReasons.length = r.residualFilterIndices.length

/-- The extra predicate, and its condition if it is not empty. -/
def ExtraText (s : Bytes) (extra : List (List Placed)) : Prop :=
  (s = [] ∧ extra = []) ∨ (s ≠ [] ∧ ∃ ps, Fragment s ps ∧ extra = [ps])

section Statement

variable {api : DuckdbApi} {a : BuildArgs} {filters : List (Nat × TableFilter)} {extra : List (List Placed)}
  {order : List Lexeme}

/-- One more part at the end. -/
theorem intercalate_concat (sep x y : Bytes) (xs : List Bytes) :
    sep.intercalate (x :: xs ++ [y]) = sep.intercalate (x :: xs) ++ (sep ++ y) := by
  induction xs generalizing x with
  | nil =>
      rw [List.intercalate_singleton, List.singleton_append, List.intercalate_cons_cons,
        List.intercalate_singleton, List.append_assoc]
  | cons z zs ih =>
      have hz := ih z
      rw [List.cons_append] at hz
      rw [List.cons_append, List.cons_append, List.intercalate_cons_cons, List.intercalate_cons_cons, hz]
      simp only [List.append_assoc]

/-- Without an imitation, the extra predicate is one more condition. -/
theorem whereClause_partitionClause {frags : List Bytes} {cs : List (List Placed)}
    (hfrags : List.Forall₂ Fragment frags cs) (hextra : ExtraText a.extraPredicate extra)
    (hfind : extra = [] ∨ frags ≠ [] ∨ ¬Mentions a.selectClause) :
    ∃ frags', List.Forall₂ Fragment frags' (cs ++ extra) ∧
      whereClause (frags.map parenText) ++
        partitionClause (a.selectClause ++ whereClause (frags.map parenText)) a.extraPredicate =
      whereClause (frags'.map parenText) := by
  rcases hextra with ⟨hempty, rfl⟩ | ⟨hne, ps, hps, rfl⟩
  · refine ⟨frags, ?_, ?_⟩
    · rw [List.append_nil]
      exact hfrags
    · rw [partitionClause, if_pos hempty, List.append_nil]
  · refine ⟨frags ++ [a.extraPredicate], List.rel_append hfrags (.cons hps .nil), ?_⟩
    rw [partitionClause, if_neg hne]
    rcases frags with _ | ⟨frag, frags⟩
    · have hno : ¬utf8 " WHERE " <:+: a.selectClause := by
        rcases hfind with h | h | h
        · cases h
        · exact absurd rfl h
        · exact h
      rw [List.map_nil, whereClause, if_pos rfl, List.append_nil, if_neg hno]
      simp only [whereClause, List.nil_append, List.map_cons, List.map_nil, reduceCtorEq, if_false,
        List.intercalate_singleton, parenText, List.append_assoc]
    · have hfound : utf8 " WHERE " <:+: a.selectClause ++ whereClause ((frag :: frags).map parenText) :=
        ⟨a.selectClause, _, by simp only [whereClause, List.map_cons, reduceCtorEq, if_false, List.append_assoc]; rfl⟩
      rw [if_pos hfound]
      rw [List.map_append, List.map_cons, List.map_cons, List.map_nil]
      simp only [whereClause, List.cons_append, reduceCtorEq, if_false]
      rw [← List.cons_append, intercalate_concat]
      simp only [parenText, List.append_assoc]

theorem conditions_balanced {frags : List Bytes} {cs : List (List Placed)} (h : List.Forall₂ Fragment frags cs) :
    ∀ c ∈ cs.map lexemes, Balanced c := by
  induction h with
  | nil => exact nofun
  | cons hfrag _ ih => exact List.forall_mem_cons.mpr ⟨hfrag.balanced, ih⟩

/-- The parts of the statement in order. -/
theorem build_sql (api : DuckdbApi) (a : BuildArgs) (filters : List (Nat × TableFilter)) :
    ∃ frags reasons, List.Forall₂ Fragment frags (a.conditions api filters) ∧
      reasons.length = (a.residuals api 0 filters).length ∧
      build api a filters =
        { sql := a.selectClause ++ (whereClause (frags.map parenText) ++
            partitionClause (a.selectClause ++ whereClause (frags.map parenText)) a.extraPredicate) ++ rowsClause a
          residualFilterIndices := a.residuals api 0 filters
          residualFilterReasons := reasons
          params := (a.conditions api filters).flatMap constants
          pushedFilterSql := frags } := by
  obtain ⟨frags, reasons, hfrags, hlength, hloop⟩ := @BuildArgs.foldl_filterStep_eq a api filters {}
  refine ⟨frags, reasons, hfrags, hlength, ?_⟩
  simp only [build, hloop, List.nil_append, List.append_assoc]

/-- What is written behind the table begins with a blank, or is nothing. -/
theorem build_sql_apart (api : DuckdbApi) (a : BuildArgs) (filters : List (Nat × TableFilter)) :
    ∃ tail, (build api a filters).sql = a.selectClause ++ tail ∧ Apart tail := by
  obtain ⟨frags, reasons, -, -, hbuild⟩ := build_sql api a filters
  rw [hbuild]
  refine ⟨_, List.append_assoc _ _ _, ?_⟩
  exact ((whereClause_apart _).append (partitionClause_apart _ _)).append (rowsClause_apart a)

/-- The lexemes of a statement with a `WHERE` clause of some conditions. -/
theorem statement_lexemes {frags : List Bytes} {cs : List (List Placed)} (hfrags : List.Forall₂ Fragment frags cs)
    (horder : a.limit.isSome = true → OrderText a.paginationOrderBy order) :
    ∃ ts, lex (a.selectClause ++ whereClause (frags.map parenText) ++ rowsClause a) = some ts ∧
      Select.parse ts = some
        { items := a.items, table := a.tableName, conditions := cs.map lexemes
          order := a.limit.map fun limit => (order, a.bounds limit) } ∧
      ts.count .param = (cs.flatMap constants).length := by
  obtain ⟨item, items, hitems, hread, hselect⟩ := BuildArgs.selectClause_fragment (a := a)
  obtain ⟨hrows, hbounds⟩ := rowsClause_fragment horder
  have hstart := hselect.append (whereClause_fragment hfrags) (whereClause_apart _)
  have hall := hstart.append hrows (rowsClause_apart a)
  refine ⟨_, hall.lexes, ?_, ?_⟩
  · rw [lexemes_append, lexemes_append, lexemes_inl, lexemes_inl, lexemes_wherePlaced, List.append_assoc]
    have hparse := parse_lexemes hread a.tableName (conditions_balanced hfrags) hbounds
    rw [← hitems] at hparse
    simp only [List.cons_append, List.append_assoc, List.nil_append] at hparse ⊢
    exact hparse
  · rw [count_param hall.plain, constants_append, constants_append, constants_inl, constants_inl,
      constants_wherePlaced, List.nil_append, List.append_nil]

/-- With an imitation and no condition in front, the extra predicate follows the table behind an `AND`. -/
theorem imitation_unread {s : Bytes} {ps : List Placed} (hps : Fragment s ps)
    (horder : a.limit.isSome = true → OrderText a.paginationOrderBy order) :
    ∃ ts, lex (a.selectClause ++ (utf8 " AND " ++ utf8 "(" ++ s ++ utf8 ")") ++ rowsClause a) = some ts ∧
      Select.parse ts = none := by
  obtain ⟨item, items, -, hread, hselect⟩ := BuildArgs.selectClause_fragment (a := a)
  obtain ⟨hrows, -⟩ := rowsClause_fragment horder
  have hall := (hselect.between and_glue (by decide) hps.paren).append hrows (rowsClause_apart a)
  have htext : a.selectClause ++ (utf8 " AND " ++ utf8 "(" ++ s ++ utf8 ")") ++ rowsClause a =
      a.selectClause ++ (utf8 " AND " ++ (utf8 "(" ++ s ++ utf8 ")")) ++ rowsClause a := by
    simp only [List.append_assoc]
  refine ⟨_, htext ▸ hall.lexes, ?_⟩
  rw [lexemes_append, lexemes_append, lexemes_append, lexemes_inl, lexemes_inl, lexemes_inl, lexemes_paren]
  have hnone := parse_and hread a.tableName (lexemes ps ++ ([rparen] ++
    orderLexemes (a.limit.map fun limit => (order, a.bounds limit))))
  simp only [List.cons_append, List.append_assoc, List.nil_append] at hnone ⊢
  exact hnone

/-- No condition is written exactly when no filter is pushed. -/
theorem conditions_eq_nil : a.conditions api filters = [] ↔ ¬∃ entry ∈ filters, a.pushes api entry = true := by
  rw [BuildArgs.conditions, List.map_eq_nil_iff, List.filter_eq_nil_iff]
  push Not
  rfl

/-- **The statement is as intended**, once the caller has appended the parameters of the extra predicate,
    exactly when there is no such predicate, or a filter is pushed, or no name imitates the keyword. -/
theorem build_intended_iff (hextra : ExtraText a.extraPredicate extra)
    (horder : a.limit.isSome = true → OrderText a.paginationOrderBy order) :
    Intended api a filters extra order
        { build api a filters with params := (build api a filters).params ++ extra.flatMap constants } ↔
      extra = [] ∨ (∃ entry ∈ filters, a.pushes api entry = true) ∨ ∀ name ∈ a.names, ¬Mentions name := by
  obtain ⟨frags, reasons, hfrags, hlength, hbuild⟩ := build_sql api a filters
  have hnames : (∀ name ∈ a.names, ¬Mentions name) ↔ ¬Mentions a.selectClause := by
    rw [BuildArgs.mentions_selectClause]
    push Not
    rfl
  have hnone : frags = [] ↔ a.conditions api filters = [] := by
    rw [← List.length_eq_zero_iff, hfrags.length_eq, List.length_eq_zero_iff]
  rw [hnames, hbuild]
  constructor
  · intro h
    -- with nothing pushed and the words in a name, the predicate goes behind `AND`, and nothing reads the statement
    by_contra hcon
    push Not at hcon
    obtain ⟨hne, hpush, hmentions⟩ := hcon
    obtain ⟨ps, hps, hextraNe⟩ : ∃ ps, Fragment a.extraPredicate ps ∧ a.extraPredicate ≠ [] := by
      rcases hextra with ⟨-, rfl⟩ | ⟨hne', ps, hps, -⟩
      · exact absurd rfl hne
      · exact ⟨ps, hps, hne'⟩
    have hconditions : a.conditions api filters = [] := by
      rw [conditions_eq_nil]
      push Not
      exact hpush
    obtain rfl := hnone.mpr hconditions
    obtain ⟨ts, hts, hparse, -⟩ := h.parses
    obtain ⟨us, hus, hunread⟩ := imitation_unread hps horder
    have hfound : utf8 " WHERE " <:+: a.selectClause := hmentions
    simp only [List.map_nil, whereClause, if_true, List.append_nil, partitionClause, hextraNe, if_false, hfound,
      List.nil_append] at hts
    rw [hus] at hts
    rw [Option.some.inj hts, hparse] at hunread
    cases hunread
  · intro h
    have hfind : extra = [] ∨ frags ≠ [] ∨ ¬Mentions a.selectClause := by
      refine h.imp_right (Or.imp_left fun hpush hnil => ?_)
      exact conditions_eq_nil.mp (hnone.mp hnil) hpush
    obtain ⟨frags', hfrags', htext⟩ := whereClause_partitionClause hfrags hextra hfind
    obtain ⟨ts, hts, hparse, hcount⟩ := statement_lexemes hfrags' horder
    refine ⟨⟨ts, ?_, hparse, ?_⟩, ?_, hfrags, rfl, hlength⟩
    · rw [htext]
      exact hts
    · rw [hcount, List.flatMap_append]
    · rw [List.flatMap_append]

end Statement

end FirebirdScan
