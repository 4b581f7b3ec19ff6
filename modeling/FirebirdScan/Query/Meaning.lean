import FirebirdScan.Lib.SearchCondition
import FirebirdScan.Query.Translate

/-!
# `Query.Meaning` — what a filter means, and what its translation means

DuckDB evaluates a filter as a tree (`DuckDb.expression`, `DuckDb.filter`); the server reads the fragment
as text, and evaluates what it read (`SearchCondition`). Both use three-valued logic.

This file has the two evaluations, the tokens of a fragment and their text (`render`), and the phrases the
emitters write. `Renders` is what is proved of each emitter: its text is that of a phrase, the phrase uses
exactly the parameters added, and its truth value is known where the two sides compare alike. The
conjunction loops preserve it (`conjunction_renders`); the translators themselves are in `Query.Faithful`.
-/

namespace FirebirdScan

open SearchCondition

/-! ## DuckDB's side -/

/-- DuckDB's evaluation, as far as it is not in this repository: how values compare, what a cast gives
    (`NULL` when it fails), and the truth of the predicates the translators leave alone. -/
structure DuckDb where
  compare : CompareOp → Value → Value → Bool
  compare_flip : ∀ op a b, compare op.flip a b = compare op b a
  cast : LogicalType → Bool → Value → Value
  scalar : Expression → Value → Value
  predicate : Expression → Value → Truth
  tableFilter : TableFilter → Value → Truth

/-- The comparison operators among the expression types. -/
def compareOf : ExpressionType → Option CompareOp
  | .compareEqual => some .eq
  | .compareNotEqual => some .ne
  | .compareLessThan => some .lt
  | .compareGreaterThan => some .gt
  | .compareLessThanOrEqualTo => some .le
  | .compareGreaterThanOrEqualTo => some .ge
  | _ => none

/-- The connectives among the expression types. -/
def connectiveOf : ExpressionType → Option Connective
  | .conjunctionAnd => some .and
  | .conjunctionOr => some .or
  | _ => none

namespace DuckDb

variable (D : DuckDb)

def algebra : Algebra Value := ⟨Value.isNull, D.compare⟩

/-- An operand's value on the column value `x`. -/
def operand (x : Value) : Expression → Value
  | .boundRef _ => x
  | .boundColumnRef _ _ => x
  | .boundConstant v => v
  | .boundCast target tryCast child => D.cast target tryCast (operand x child)
  | e => D.scalar e x

/-- An operator over its operands' values; `e` is the expression itself. -/
def operator (x : Value) (e : Expression) : ExpressionType → List Expression → Truth
  | .compareIn, subject :: items => D.algebra.member (D.operand x subject) (items.map (D.operand x))
  | .operatorIsNull, [child] => .ofBool (D.operand x child).isNull
  | .operatorIsNotNull, [child] => (Truth.ofBool (D.operand x child).isNull).not
  | _, _ => D.predicate e x

mutual
/-- The truth value of a bound expression on the column value `x`. -/
def expression (x : Value) : Expression → Truth
  | .boundComparison type left right =>
      match compareOf type with
      | some op => D.algebra.test op (D.operand x left) (D.operand x right)
      | none => D.predicate (.boundComparison type left right) x
  | .boundOperator type children => D.operator x (.boundOperator type children) type children
  | .boundConjunction type children =>
      match connectiveOf type with
      | some k => expressions x k children
      | none => D.predicate (.boundConjunction type children) x
  | e => D.predicate e x

/-- A connective over a list. -/
def expressions (x : Value) (k : Connective) : List Expression → Truth
  | [] => k.unit
  | e :: es => k.apply (expression x e) (expressions x k es)
end

mutual
/-- The truth value of a table filter on the column value `x`. -/
def filter (x : Value) : TableFilter → Truth
  | .constantComparison type constant =>
      match compareOf type with
      | some op => D.algebra.test op x constant
      | none => D.tableFilter (.constantComparison type constant) x
  | .isNull => .ofBool x.isNull
  | .isNotNull => (Truth.ofBool x.isNull).not
  | .conjunctionAnd fs => filters x .and fs
  | .conjunctionOr fs => filters x .or fs
  | .inFilter values => D.algebra.member x values
  | .optionalFilter (some f) => filter x f
  | .expressionFilter (some e) => D.expression x e
  | f => D.tableFilter f x

/-- A connective over a list. -/
def filters (x : Value) (k : Connective) : List TableFilter → Truth
  | [] => k.unit
  | f :: fs => k.apply (filter x f) (filters x k fs)
end

/-- DuckDB with every cast left out. -/
def ignoringCasts : DuckDb := { D with cast := fun _ _ v => v }

end DuckDb

/-! ## The constants of a filter -/

mutual
/-- The constants the comparisons and `IN` lists of an expression mention. -/
def Expression.constants : Expression → List Value
  | .boundConstant v => [v]
  | .boundComparison _ left right => left.constants ++ right.constants
  | .boundOperator _ children => Expression.constantsList children
  | .boundConjunction _ children => Expression.constantsList children
  | _ => []

def Expression.constantsList : List Expression → List Value
  | [] => []
  | e :: es => e.constants ++ Expression.constantsList es
end

mutual
def TableFilter.constants : TableFilter → List Value
  | .constantComparison _ v => [v]
  | .conjunctionAnd fs => TableFilter.constantsList fs
  | .conjunctionOr fs => TableFilter.constantsList fs
  | .inFilter values => values
  | .optionalFilter (some f) => f.constants
  | .expressionFilter (some e) => e.constants
  | _ => []

def TableFilter.constantsList : List TableFilter → List Value
  | [] => []
  | f :: fs => f.constants ++ TableFilter.constantsList fs
end

/-! ## The server's side -/

/-- The server's comparisons. The last field is what the `(1=0)` of an empty list relies on. -/
structure Server where
  compare : CompareOp → Value → Value → Bool
  one_ne_zero : compare .eq (.integer 1) (.integer 0) = false

def Server.algebra (S : Server) : Algebra Value := ⟨Value.isNull, S.compare⟩

/-- The text of a literal token. -/
def literalText : Value → Bytes
  | .integer n => utf8 (toString n.toInt)
  | .bigint n => utf8 (toString n.toInt)
  | v => (safeLiteralInline v).getD []

def opText : CompareOp → Bytes
  | .eq => utf8 "="
  | .ne => utf8 "<>"
  | .lt => utf8 "<"
  | .gt => utf8 ">"
  | .le => utf8 "<="
  | .ge => utf8 ">="

variable {κ : Type}

/-- The text of a token; `columnText` is the expression the scan uses for a column. -/
def tokenText (columnText : κ → Bytes) : Token κ Value → Bytes
  | .operand (.column col) => columnText col
  | .operand .param => utf8 "?"
  | .operand (.literal v) => literalText v
  | .op o => opText o
  | .connective .and => utf8 "AND"
  | .connective .or => utf8 "OR"
  | .lparen => utf8 "("
  | .rparen => utf8 ")"
  | .comma => utf8 ","
  | .blank => utf8 " "
  | .kwIn => utf8 "IN"
  | .kwIs => utf8 "IS"
  | .kwNot => utf8 "NOT"
  | .kwNull => utf8 "NULL"

def render (columnText : κ → Bytes) (lexemes : List (Token κ Value)) : Bytes :=
  lexemes.flatMap (tokenText columnText)

@[simp] theorem render_nil (columnText : κ → Bytes) : render columnText [] = [] := rfl

@[simp] theorem render_cons (columnText : κ → Bytes) (t : Token κ Value) (ts : List (Token κ Value)) :
    render columnText (t :: ts) = tokenText columnText t ++ render columnText ts := rfl

@[simp] theorem render_append (columnText : κ → Bytes) (ts us : List (Token κ Value)) :
    render columnText (ts ++ us) = render columnText ts ++ render columnText us := by
  simp [render]

/-! ## Constants in the text -/

/-- How a constant stands in the text: as a placeholder if it can be bound. -/
def operandOf (v : Value) : Operand κ Value := if isBindableType v.type then .param else .literal v

/-- The parameters a constant adds. -/
def paramsOf (v : Value) : List Value := if isBindableType v.type then [v] else []

theorem eval_operandOf (row : κ → Value) (v : Value) (rest : List Value) :
    (operandOf v).eval row (paramsOf v ++ rest) = some (v, rest) := by
  unfold operandOf paramsOf
  split_ifs with h <;> rfl

theorem evalList_operandOf (row : κ → Value) (vs rest : List Value) :
    Operand.evalList row (vs.map operandOf) (vs.flatMap paramsOf ++ rest) = some (vs, rest) := by
  induction vs with
  | nil => rfl
  | cons v vs ih => simp [Operand.evalList, List.append_assoc, eval_operandOf, ih]

/-- An inlined constant is not an `INTEGER` or a `BIGINT`, so its literal is what `SafeLiteralInline` wrote. -/
theorem literalText_of_inline {v : Value} {lit : Bytes} (hb : isBindableType v.type = false)
    (h : safeLiteralInline v = some lit) : literalText v = lit := by
  cases v with
  | integer n => simp [isBindableType, Value.type] at hb
  | bigint n => simp [isBindableType, Value.type] at hb
  | _ => simp [literalText, h]

/-! ## Fragments -/

/-- DuckDB and the server agree on comparing `x` with each of the constants. -/
def AgreesAt (S : Server) (D : DuckDb) (x : Value) (constants : List Value) : Prop :=
  x.isNull = false → ∀ c ∈ constants, c.isNull = false → ∀ op, S.compare op x c = D.compare op x c

theorem AgreesAt.mono {S : Server} {D : DuckDb} {x : Value} {cs ds : List Value}
    (h : AgreesAt S D x ds) (hsub : ∀ c ∈ cs, c ∈ ds) : AgreesAt S D x cs :=
  fun hx c hc => h hx c (hsub c hc)

/-- The fragment is the text of some tokens that are a phrase of the level and use exactly the parameters
    added; and where the two sides agree on the constants, its truth value on a row is `meaning` of the
    column's value. -/
def Renders (S : Server) (D : DuckDb) (columnText : κ → Bytes) (col : κ) (l : Level) (frag : Bytes)
    (params params' : List Value) (constants : List Value) (meaning : Value → Truth) : Prop :=
  ∃ lexemes added t, frag = render columnText lexemes ∧ params' = params ++ added ∧
    Says S.algebra l lexemes added t ∧
    ∀ row, AgreesAt S D (row col) constants → t row = meaning (row col)

section Renders

variable {S : Server} {D : DuckDb} {columnText : κ → Bytes} {col : κ}

/-- A single comparison of the column with a constant. -/
theorem says_compare (op : CompareOp) (c : Value) :
    Says S.algebra .primary
      [.operand (.column col), .blank, .op op, .blank, .operand (operandOf c)] (paramsOf c)
      (fun row => S.algebra.test op (row col) c) := by
  refine ⟨.compare (.column col) op (operandOf c), ?_, ?_⟩
  · simpa [List.filter_cons, Token.visible] using Phrase.compare (.column col) op (operandOf c)
  · intro row rest
    simp [Cond.eval, eval_operandOf]

/-- The tokens of `, v, w, …`. -/
def moreItems (vs : List Value) : List (Token κ Value) :=
  vs.flatMap fun v => [.comma, .blank, .operand (operandOf v)]

theorem visible_items (v : Value) (vs : List Value) :
    ((.operand (operandOf v) :: moreItems vs ++ [.rparen] : List (Token κ Value)).filter Token.visible) =
      itemTokens (operandOf v) (vs.map operandOf) := by
  induction vs generalizing v with
  | nil => rfl
  | cons w vs ih =>
      have hw := ih w
      simp only [List.cons_append, List.filter_cons, Token.visible, if_true] at hw
      simp [moreItems, List.filter_cons, Token.visible, itemTokens, ← hw]

/-- An `IN` list over the column. -/
theorem says_inList (v : Value) (vs : List Value) :
    Says S.algebra .primary
      (.operand (.column col) :: .blank :: .kwIn :: .blank :: .lparen :: .operand (operandOf v) ::
        moreItems vs ++ [.rparen])
      ((v :: vs).flatMap paramsOf) (fun row => S.algebra.member (row col) (v :: vs)) := by
  refine ⟨.inList false (.column col) (operandOf v :: vs.map operandOf), ?_, ?_⟩
  · have hvis := visible_items (κ := κ) v vs
    have hphrase := Phrase.inList false (.column col) (operandOf v) (vs.map operandOf)
    rw [← hvis] at hphrase
    simpa [List.filter_cons, Token.visible] using hphrase
  · intro row rest
    have hitems := evalList_operandOf row (v :: vs) rest
    rw [List.map_cons, List.flatMap_cons, List.append_assoc] at hitems
    simp [Cond.eval, Truth.negateIf, hitems]

/-- `IS NULL` and `IS NOT NULL`. -/
theorem says_isNull (negated : Bool) :
    Says S.algebra .primary
      (.operand (.column col) :: .blank :: .kwIs :: .blank ::
        (if negated then [.kwNot, .blank, .kwNull] else [.kwNull])) []
      (fun row => (Truth.ofBool (row col).isNull).negateIf negated) := by
  refine ⟨.isNull negated (.column col), ?_, ?_⟩
  · have hphrase := Phrase.isNull negated (Operand.column (V := Value) col)
    cases negated <;> exact hphrase
  · intro row rest
    simp [Cond.eval, Server.algebra]

/-- The `(1=0)` an empty list becomes. -/
theorem says_never :
    Says S.algebra .primary
      [.lparen, .operand (.literal (.integer 1)), .op .eq, .operand (.literal (.integer 0)), .rparen] []
      (fun _ : κ → Value => .false) := by
  refine ⟨.compare (.literal (.integer 1)) .eq (.literal (.integer 0)), ?_, ?_⟩
  · have hcmp := Phrase.compare (Operand.literal (κ := κ) (Value.integer 1)) .eq (.literal (.integer 0))
    exact hcmp.top.paren
  · intro row rest
    simp [Cond.eval, Operand.eval, Algebra.test, Server.algebra, Value.isNull, S.one_ne_zero,
      Truth.ofBool]

/-- Where the comparisons agree, so do the tests. -/
theorem test_eq_of_agreesAt {x c : Value} {cs : List Value} (h : AgreesAt S D x cs) (hc : c ∈ cs)
    (op : CompareOp) : S.algebra.test op x c = D.algebra.test op x c :=
  Algebra.test_congr (A := S.algebra) (B := D.algebra) rfl fun hx hcn => h hx c hc hcn op

theorem member_eq_of_agreesAt {x : Value} {cs vs : List Value} (h : AgreesAt S D x cs)
    (hsub : ∀ v ∈ vs, v ∈ cs) : S.algebra.member x vs = D.algebra.member x vs :=
  Algebra.member_congr (A := S.algebra) (B := D.algebra) rfl fun v hv hx hvn => h hx v (hsub v hv) hvn .eq

/-! ## The emitters write those phrases -/

theorem comparisonToSql_eq_some {type : ExpressionType} {sql : Bytes}
    (h : comparisonToSql type = some sql) : ∃ op, compareOf type = some op ∧ sql = opText op := by
  cases type <;> simp only [comparisonToSql, Option.some.injEq, reduceCtorEq] at h <;>
    exact ⟨_, rfl, h.symm⟩

/-- `emitComparison` writes `col op ?` or `col op literal`. -/
theorem emitComparison_renders {op : CompareOp} {c : Value} {params params' : List Value} {frag : Bytes}
    (h : emitComparison (columnText col) (opText op) c params = some (frag, params')) :
    Renders S D columnText col .primary frag params params' [c] (fun x => D.algebra.test op x c) := by
  unfold emitComparison at h
  refine ⟨_, _, _, ?_, ?_, says_compare op c, fun row hrow => test_eq_of_agreesAt hrow (by simp) op⟩
  -- the text, with the constant bound and with the constant inlined
  · split_ifs at h with hb
    · obtain ⟨rfl, -⟩ := Prod.mk.inj (Option.some.inj h)
      simp [tokenText, operandOf, hb]
      rfl
    · obtain ⟨lit, hlit, heq⟩ := Option.map_eq_some_iff.mp h
      obtain ⟨rfl, -⟩ := Prod.mk.inj heq
      simp [tokenText, operandOf, hb, literalText_of_inline (by simpa using hb) hlit]
  -- the parameters, in the same two cases
  · split_ifs at h with hb
    · obtain ⟨-, rfl⟩ := Prod.mk.inj (Option.some.inj h)
      simp [paramsOf, hb]
    · obtain ⟨lit, hlit, heq⟩ := Option.map_eq_some_iff.mp h
      obtain ⟨-, rfl⟩ := Prod.mk.inj heq
      simp [paramsOf, hb]

variable (columnText) in
/-- One round of the item loop appends one operand and its parameter. -/
theorem emitInItems_cons {first : Bool} {acc : Bytes} {v : Value} {vs params : List Value}
    {r : Bytes × List Value} (h : emitInItems first acc (v :: vs) params = some r) :
    emitInItems false
      ((if first then acc else acc ++ utf8 ", ") ++ tokenText columnText (.operand (operandOf v))) vs
      (params ++ paramsOf v) = some r := by
  cases hb : isBindableType v.type with
  | true =>
      simp only [emitInItems, hb, if_true] at h
      simpa [operandOf, paramsOf, hb, tokenText] using h
  | false =>
      cases hl : safeLiteralInline v with
      | none => simp [emitInItems, hb, hl] at h
      | some lit =>
          simp only [emitInItems, hb, hl] at h
          simpa [operandOf, paramsOf, hb, tokenText, literalText_of_inline hb hl] using h

variable (columnText) in
/-- The item loop past its first item. -/
theorem emitInItems_eq_some {vs params params' : List Value} {acc out : Bytes}
    (h : emitInItems false acc vs params = some (out, params')) :
    out = acc ++ render columnText (moreItems vs) ∧ params' = params ++ vs.flatMap paramsOf := by
  induction vs generalizing acc params with
  | nil =>
      obtain ⟨rfl, rfl⟩ := Prod.mk.inj (Option.some.inj h)
      simp [moreItems]
  | cons v vs ih =>
      have hmore : render columnText (moreItems (v :: vs)) =
          utf8 ", " ++ tokenText columnText (.operand (operandOf v)) ++
            render columnText (moreItems vs) := by
        simp only [moreItems, List.flatMap_cons, render_append, render_cons, render_nil, tokenText,
          List.append_nil, ← List.append_assoc]
        rfl
      obtain ⟨rfl, rfl⟩ := ih (emitInItems_cons columnText h)
      rw [hmore]
      simp [List.append_assoc]

/-- `emitInList` writes `col IN (v, w, …)`, or `(1=0)` for the empty list. -/
theorem emitInList_renders {vs params params' : List Value} {frag : Bytes}
    (h : emitInList (columnText col) vs params = some (frag, params')) :
    Renders S D columnText col .primary frag params params' vs (fun x => D.algebra.member x vs) := by
  cases vs with
  | nil =>
      simp only [emitInList, List.isEmpty_nil, if_true, Option.some.injEq, Prod.mk.injEq] at h
      obtain ⟨rfl, rfl⟩ := h
      refine ⟨_, _, _, ?_, (List.append_nil _).symm, says_never, fun x _ => rfl⟩
      -- `(1=0)` has no column in it, so its text is closed
      simp only [render_cons, render_nil, tokenText, literalText, opText]
      decide +kernel
  | cons v vs =>
      simp only [emitInList, List.isEmpty_cons, Bool.false_eq_true, if_false] at h
      obtain ⟨⟨out, ps⟩, hitems, heq⟩ := Option.map_eq_some_iff.mp h
      obtain ⟨rfl, rfl⟩ := Prod.mk.inj heq
      have hopen : columnText col ++ utf8 " IN (" =
          render columnText [.operand (.column col), .blank, .kwIn, .blank, .lparen] := by
        simp only [render_cons, render_nil, tokenText]
        rfl
      obtain ⟨rfl, rfl⟩ :=
        emitInItems_eq_some columnText (emitInItems_cons columnText hitems)
      refine ⟨_, _, _, ?_, ?_, says_inList v vs, fun row hrow => member_eq_of_agreesAt hrow fun w hw => hw⟩
      · rw [if_pos rfl, hopen]
        simp [tokenText]
      · simp [List.append_assoc]

/-! ## Fragments as operands of a conjunction -/

theorem Renders.top {frag : Bytes} {params params' cs : List Value} {m : Value → Truth}
    (h : Renders S D columnText col .primary frag params params' cs m) :
    Renders S D columnText col (.chain .or) frag params params' cs m := by
  obtain ⟨lexemes, added, t, hf, hp, hs, ht⟩ := h
  exact ⟨lexemes, added, t, hf, hp, hs.top, ht⟩

/-- More constants to agree on, and a meaning that is the same where they do. -/
theorem Renders.weaken {l : Level} {frag : Bytes} {params params' cs ds : List Value}
    {m m' : Value → Truth} (h : Renders S D columnText col l frag params params' cs m)
    (hsub : ∀ c ∈ cs, c ∈ ds) (hm : ∀ x, m x = m' x) :
    Renders S D columnText col l frag params params' ds m' := by
  obtain ⟨lexemes, added, t, hf, hp, hs, ht⟩ := h
  exact ⟨lexemes, added, t, hf, hp, hs, fun row hrow => (ht row (hrow.mono hsub)).trans (hm (row col))⟩

/-- The conjunction loops of both translators, over any children. -/
def conjoin {α : Type} (translate : α → List Value → Option (Bytes × List Value)) (sep : Bytes) :
    Bytes → List α → List Value → Option (Bytes × List Value)
  | acc, [], params => some (acc, params)
  | acc, child :: children, params =>
      match translate child params with
      | none => none
      | some (part, params) => conjoin translate sep (appendPart sep acc part) children params

/-- The truth value of a connective over any children. -/
def combine {α : Type} (k : Connective) (meaning : α → Truth) : List α → Truth
  | [] => k.unit
  | a :: as => k.apply (meaning a) (combine k meaning as)

/-- The separator of a connective. -/
def separator : Connective → Bytes
  | .and => utf8 " AND "
  | .or => utf8 " OR "

variable (columnText) in
theorem render_separator (k : Connective) :
    render columnText [.blank, .connective k, .blank] = separator k := by
  cases k <;> simp only [render_cons, render_nil, tokenText] <;> rfl

theorem appendPart_ne_nil (sep acc part : Bytes) : appendPart sep acc part ≠ [] := by
  have hparen : utf8 ")" ≠ [] := by decide
  simp [appendPart, hparen]

/-- **The conjunction loop.** If every child's fragment renders the child, what the loop appends to its
    accumulator is a chain of the connective and renders their combination. -/
theorem conjoin_renders {α : Type} {translate : α → List Value → Option (Bytes × List Value)}
    {constants : α → List Value} {meaning : α → Value → Truth} (k : Connective) {child : α}
    {children : List α}
    (hchild : ∀ a ∈ child :: children, ∀ {params frag params'},
      translate a params = some (frag, params') →
      Renders S D columnText col (.chain .or) frag params params' (constants a) (meaning a))
    {acc out : Bytes} {params params' : List Value}
    (h : conjoin translate (separator k) acc (child :: children) params = some (out, params')) :
    ∃ tail, out = (if acc = [] then acc else acc ++ separator k) ++ tail ∧
      Renders S D columnText col (.chain k) tail params params' ((child :: children).flatMap constants)
        (fun x => combine k (fun a => meaning a x) (child :: children)) := by
  induction children generalizing child acc params with
  | nil =>
      cases hpart : translate child params with
      | none => simp [conjoin, hpart] at h
      | some r =>
          obtain ⟨part, ps⟩ := r
          obtain ⟨lexemes, added, t, rfl, rfl, hs, ht⟩ := hchild child (by simp) hpart
          simp only [conjoin, hpart, Option.some.injEq, Prod.mk.injEq] at h
          obtain ⟨rfl, rfl⟩ := h
          refine ⟨_, (List.append_assoc _ _ _).trans (List.append_assoc _ _ _), _, added, t, ?_, rfl,
            hs.paren.single k, fun row hrow => ?_⟩
          · simp [tokenText]
          · simpa [combine] using ht row (hrow.mono (by simp))
  | cons next children ih =>
      cases hpart : translate child params with
      | none => simp [conjoin, hpart] at h
      | some r =>
          obtain ⟨part, ps⟩ := r
          obtain ⟨lexemes, added, t, rfl, rfl, hs, ht⟩ := hchild child (by simp) hpart
          -- the next round starts from an accumulator that is not empty, so it adds a separator
          rw [conjoin, hpart] at h
          obtain ⟨tail, rfl, lexemes', added', t', rfl, rfl, hs', ht'⟩ :=
            ih (fun a ha => hchild a (by simp [List.mem_cons.mp ha])) h
          rw [if_neg (appendPart_ne_nil _ _ _)]
          refine ⟨_, ?_, _, added ++ added', _, rfl, (List.append_assoc _ _ _),
            hs.paren.cons k hs', fun row hrow => ?_⟩
          · rw [← render_separator columnText k]
            simp [appendPart, tokenText, List.append_assoc]
          · rw [List.flatMap_cons] at hrow
            rw [ht row (hrow.mono fun c hc => List.mem_append_left _ hc),
              ht' row (hrow.mono fun c hc => List.mem_append_right _ hc)]
            rfl

/-- A conjunction that was translated has children, and renders their combination. -/
theorem conjunction_renders {α : Type} {translate : α → List Value → Option (Bytes × List Value)}
    {constants : α → List Value} {meaning : α → Value → Truth} (k : Connective) {children : List α}
    (hchild : ∀ a ∈ children, ∀ {params frag params'}, translate a params = some (frag, params') →
      Renders S D columnText col (.chain .or) frag params params' (constants a) (meaning a))
    {frag : Bytes} {params params' : List Value}
    (h : (conjoin translate (separator k) [] children params).bind nonemptyFragment =
      some (frag, params')) :
    Renders S D columnText col (.chain .or) frag params params' (children.flatMap constants)
      (fun x => combine k (fun a => meaning a x) children) := by
  obtain ⟨⟨out, ps⟩, hloop, hout⟩ := Option.bind_eq_some_iff.mp h
  cases children with
  | nil =>
      obtain ⟨rfl, rfl⟩ := Prod.mk.inj (Option.some.inj hloop)
      simp [nonemptyFragment] at hout
  | cons child children =>
      obtain ⟨tail, rfl, hr⟩ := conjoin_renders k hchild hloop
      simp only [nonemptyFragment] at hout
      split_ifs at hout with hne
      obtain ⟨rfl, rfl⟩ := Prod.mk.inj (Option.some.inj hout)
      obtain ⟨lexemes, added, t, hf, hp, hs, ht⟩ := hr
      exact ⟨lexemes, added, t, hf, hp, hs.whole, ht⟩

end Renders

end FirebirdScan
