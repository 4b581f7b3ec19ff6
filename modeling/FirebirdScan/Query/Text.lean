import FirebirdScan.Lib.SqlText
import FirebirdScan.Query.Build

/-!
# `Query.Text` — the text of a statement, as a server lexes it

`Fragment` is what is known of a piece of the `WHERE` clause: its lexemes, that its parentheses are closed, and
how many placeholders are outside quotes. The translators write fragments with one placeholder for each
parameter they add (`translateFilter_writes`), whatever the names and the constants contain.

`Query.Statement` puts the clauses together. The builder chooses between `WHERE` and `AND` by searching the
text so far, where a name may imitate the keyword.
-/

namespace FirebirdScan

open SqlText

/-! ## Names, strings and numbers -/

theorem utf8_append (s t : String) : utf8 (s ++ t) = utf8 s ++ utf8 t := by
  simp [utf8, Utf8.ofString, Utf8.encode]

theorem lex_quoteIdent (name : Bytes) : lex (quoteIdent name) = some [.ident name] := lex_quoted .double name

theorem lex_sqlLiteral (s : Bytes) : lex (sqlLiteral s) = some [.string s] := lex_quoted .single s

/-- A digit, in UTF-8. -/
theorem encodeScalar_digit {c : Char} (hc : c.isDigit = true) :
    ∃ b, Utf8.encodeScalar c.toNat = [b] ∧ isWordByte b = true := by
  have hrange : 48 ≤ c.toNat ∧ c.toNat ≤ 57 := by
    simp only [Char.isDigit, Bool.and_eq_true, decide_eq_true_eq] at hc
    exact hc
  obtain ⟨hlo, hhi⟩ := hrange
  refine ⟨UInt8.ofNat c.toNat, ?_, ?_⟩
  · unfold Utf8.encodeScalar
    rw [if_pos (by omega)]
  · interval_cases c.toNat <;> decide

theorem digits_word (n : Nat) : ∀ b ∈ utf8 (toString n), isWordByte b = true := by
  intro b hb
  rw [utf8, Utf8.ofString, Nat.toString_eq_repr, Nat.toList_repr, Utf8.encode] at hb
  obtain ⟨cp, hcp, hb⟩ := List.mem_flatMap.mp hb
  obtain ⟨c, hc, rfl⟩ := List.mem_map.mp hcp
  obtain ⟨d, hd, hword⟩ := encodeScalar_digit (Nat.isDigit_of_mem_toDigits (by decide) (by decide) hc)
  rw [hd, List.mem_singleton] at hb
  rw [hb]
  exact hword

theorem digits_ne_nil (n : Nat) : utf8 (toString n) ≠ [] := by
  rw [utf8, Utf8.ofString, Nat.toString_eq_repr, Nat.toList_repr]
  obtain ⟨c, cs, h⟩ := List.exists_cons_of_ne_nil (@Nat.toDigits_ne_nil n 10)
  rw [h, List.map_cons, Utf8.encode_cons]
  exact List.append_ne_nil_of_left_ne_nil (Utf8.encodeScalar_ne_nil _) _

/-- Digits behind a point: as many as the scale asks for, or more. -/
theorem fractionDigits_word (scale n : Nat) : ∀ b ∈ fractionDigits scale n, isWordByte b = true := by
  intro b hb
  rcases List.mem_append.mp hb with hzero | hdigit
  · obtain rfl := List.eq_of_mem_replicate hzero
    decide
  · exact digits_word n b hdigit

theorem fractionDigits_ne_nil (scale n : Nat) : fractionDigits scale n ≠ [] :=
  List.append_ne_nil_of_right_ne_nil _ (digits_ne_nil n)

/-! ## Placed constants -/

/-- A lexeme of a predicate; in the place of a placeholder, the constant it stands for. -/
abbrev Placed := Lexeme ⊕ Value

def Placed.lexeme : Placed → Lexeme
  | .inl t => t
  | .inr _ => .param

/-- The lexemes of a text without placeholders. -/
def words (s : Bytes) : List Placed := ((lex s).getD []).map .inl

/-- The lexemes that the server sees. -/
def lexemes (ps : List Placed) : List Lexeme := ps.map Placed.lexeme

/-- The constants, in the order of their placeholders. -/
def constants (ps : List Placed) : List Value := ps.filterMap Sum.getRight?

@[simp] theorem lexemes_append (ps qs : List Placed) : lexemes (ps ++ qs) = lexemes ps ++ lexemes qs :=
  List.map_append

@[simp] theorem constants_append (ps qs : List Placed) : constants (ps ++ qs) = constants ps ++ constants qs :=
  List.filterMap_append

theorem lexemes_inl (ts : List Lexeme) : lexemes (ts.map .inl) = ts := by
  rw [lexemes, List.map_map]
  exact List.map_id ts

theorem constants_inl (ts : List Lexeme) : constants (ts.map .inl) = [] := by
  rw [constants, List.filterMap_map]
  exact List.filterMap_eq_nil_iff.mpr fun _ _ => rfl

@[simp] theorem constants_words (s : Bytes) : constants (words s) = [] := constants_inl _

/-- Every placeholder has its constant. -/
theorem count_param {ps : List Placed} (h : Sum.inl .param ∉ ps) :
    (lexemes ps).count .param = (constants ps).length := by
  induction ps with
  | nil => rfl
  | cons p ps ih =>
      have hrest := ih fun hmem => h (List.mem_cons_of_mem _ hmem)
      rcases p with t | v
      · have hne : ¬(t == Lexeme.param) = true := fun ht => h (eq_of_beq ht ▸ List.mem_cons_self)
        show (t :: lexemes ps).count .param = (constants ps).length
        rw [List.count_cons, if_neg hne]
        exact hrest
      · show (Lexeme.param :: lexemes ps).count .param = (v :: constants ps).length
        rw [List.count_cons_self, List.length_cons, hrest]

/-! ## Fragments -/

/-- A text whose lexemes are known: the parentheses are closed, and every placeholder has its constant. -/
structure Fragment (s : Bytes) (ps : List Placed) : Prop where
  lexes : lex s = some (lexemes ps)
  balanced : Balanced (lexemes ps)
  plain : Sum.inl .param ∉ ps

/-- A text without constants that ends between lexemes. -/
structure Closed (s : Bytes) (ts : List Lexeme) : Prop where
  whole : Whole s ts
  balanced : Balanced ts
  plain : .param ∉ ts

instance (s : Bytes) (ts : List Lexeme) : Decidable (Closed s ts) :=
  decidable_of_iff (Whole s ts ∧ Balanced ts ∧ .param ∉ ts)
    ⟨fun ⟨h1, h2, h3⟩ => ⟨h1, h2, h3⟩, fun ⟨h1, h2, h3⟩ => ⟨h1, h2, h3⟩⟩

/-- Such a text, with a delimiter in front. -/
structure Glue (s : Bytes) (ts : List Lexeme) : Prop extends Closed s ts where
  apart : Apart s

instance (s : Bytes) (ts : List Lexeme) : Decidable (Glue s ts) :=
  decidable_of_iff (Closed s ts ∧ Apart s)
    ⟨fun ⟨h1, h2⟩ => ⟨h1, h2⟩, fun ⟨h1, h2⟩ => ⟨h1, h2⟩⟩

section Fragment

variable {s t : Bytes} {ts : List Lexeme} {ps qs : List Placed}

theorem Fragment.words_eq (ts : List Lexeme) (h : lex s = some ts) (hbalanced : Balanced ts) (hplain : .param ∉ ts) :
    Fragment s (words s) := by
  rw [words, h, Option.getD_some]
  refine ⟨?_, ?_, fun hmem => ?_⟩
  · rw [lexemes_inl, h]
  · rw [lexemes_inl]
    exact hbalanced
  · obtain ⟨t, ht, heq⟩ := List.mem_map.mp hmem
    exact hplain (Sum.inl.inj heq ▸ ht)

theorem Fragment.of_eq (hs : Fragment s ps) (h : t = s) : Fragment t ps := h ▸ hs

/-- The second piece begins with a delimiter. -/
theorem Fragment.append (hs : Fragment s ps) (ht : Fragment t qs) (hsep : Apart t) : Fragment (s ++ t) (ps ++ qs) where
  lexes := by
    rw [lexemes_append]
    exact lex_append hs.lexes ht.lexes hsep
  balanced := by
    rw [lexemes_append]
    exact hs.balanced.append ht.balanced
  plain := List.not_mem_append hs.plain ht.plain

theorem Closed.append (hs : Closed s ts) (ht : Fragment t qs) : Fragment (s ++ t) (ts.map .inl ++ qs) where
  lexes := by
    rw [lexemes_append, lexemes_inl]
    exact hs.whole.lex_append ht.lexes
  balanced := by
    rw [lexemes_append, lexemes_inl]
    exact hs.balanced.append ht.balanced
  plain := by
    refine List.not_mem_append (fun hmem => ?_) ht.plain
    obtain ⟨t, ht, heq⟩ := List.mem_map.mp hmem
    exact hs.plain (Sum.inl.inj heq ▸ ht)

theorem Closed.fragment (hs : Closed s ts) : Fragment s (ts.map .inl) := by
  have hnil : Fragment [] [] := ⟨rfl, rfl, List.not_mem_nil⟩
  have happend := hs.append hnil
  rw [List.append_nil, List.append_nil] at happend
  exact happend

/-- Two fragments around a closed text. -/
theorem Fragment.between {sep : Bytes} (hs : Fragment s ps) (hsep : Glue sep ts) (hne : sep ≠ [])
    (ht : Fragment t qs) : Fragment (s ++ (sep ++ t)) (ps ++ (ts.map .inl ++ qs)) :=
  hs.append (hsep.append ht) (hsep.apart.front hne t)

/-- A fragment and a closed text. -/
theorem Fragment.before {sep : Bytes} (hs : Fragment s ps) (hsep : Glue sep ts) :
    Fragment (s ++ sep) (ps ++ ts.map .inl) :=
  hs.append hsep.fragment hsep.apart

/-- A fragment in parentheses. -/
def paren (ps : List Placed) : List Placed := .inl lparen :: ps ++ [.inl rparen]

@[simp] theorem constants_paren (ps : List Placed) : constants (paren ps) = constants ps := by
  rw [paren, List.cons_append]
  show constants (ps ++ [.inl rparen]) = constants ps
  rw [constants_append]
  exact List.append_nil _

theorem lexemes_paren (ps : List Placed) : lexemes (paren ps) = lparen :: lexemes ps ++ [rparen] := by
  rw [paren, List.cons_append]
  show lparen :: lexemes (ps ++ [.inl rparen]) = _
  rw [lexemes_append]
  rfl

theorem Fragment.paren (h : Fragment s ps) : Fragment (utf8 "(" ++ s ++ utf8 ")") (paren ps) where
  lexes := by
    have hopen : Whole (utf8 "(") [lparen] := by decide
    have hclose : lex (utf8 ")") = some [rparen] := by decide
    rw [lexemes_paren, List.append_assoc]
    exact hopen.lex_append (lex_append h.lexes hclose (by decide))
  balanced := by
    rw [lexemes_paren]
    exact h.balanced.paren
  plain := by
    intro hmem
    rcases List.mem_append.mp hmem with hmem | hmem
    · rcases List.mem_cons.mp hmem with heq | hmem
      · cases heq
      · exact h.plain hmem
    · cases List.mem_singleton.mp hmem

/-- A name and its arguments. -/
theorem Fragment.call (hs : Fragment s ps) (ht : Fragment t qs) :
    Fragment (s ++ (utf8 "(" ++ t ++ utf8 ")")) (ps ++ FirebirdScan.paren qs) := by
  apply hs.append ht.paren
  rw [List.append_assoc]
  exact Apart.front (by decide) (by decide) _

end Fragment

/-! ### Separators -/

theorem minus_glue : Glue (utf8 "-") [.symbol 0x2D] := by decide

theorem point_glue : Glue (utf8 ".") [.symbol 0x2E] := by decide

theorem comma_glue : Glue (utf8 ", ") [comma] := by decide

theorem and_glue : Glue (utf8 " AND ") [keyword "AND"] := by decide

theorem in_glue : Glue (utf8 " IN ") [keyword "IN"] := by decide

theorem rows_glue : Glue (utf8 " ROWS ") [keyword "ROWS"] := by decide

theorem to_glue : Glue (utf8 " TO ") [keyword "TO"] := by decide

/-! ## Constants in the text -/

theorem quoteIdent_fragment (name : Bytes) : Fragment (quoteIdent name) [.inl (.ident name)] :=
  ⟨lex_quoteIdent name, rfl, by simp⟩

theorem sqlLiteral_fragment (s : Bytes) : Fragment (sqlLiteral s) [.inl (.string s)] :=
  ⟨lex_sqlLiteral s, rfl, by simp⟩

/-- A nonempty text of word bytes. -/
theorem word_fragment {s : Bytes} (hne : s ≠ []) (hs : ∀ b ∈ s, isWordByte b = true) :
    Fragment s [.inl (.word s)] :=
  ⟨lex_word hne hs, rfl, by simp⟩

theorem digits_fragment (n : Nat) : Fragment (utf8 (toString n)) [.inl (.word (utf8 (toString n)))] :=
  word_fragment (digits_ne_nil n) (digits_word n)

/-- A text that is some fragment without constants is its own words. -/
theorem Fragment.words {s : Bytes} (ts : List Lexeme) (h : Fragment s (ts.map .inl)) :
    Fragment s (words s) := by
  refine Fragment.words_eq ts ?_ ?_ fun hmem => h.plain (List.mem_map_of_mem hmem)
  · rw [h.lexes, lexemes_inl]
  · have hbalanced := h.balanced
    rw [lexemes_inl] at hbalanced
    exact hbalanced

theorem int_words (n : Int) : Fragment (utf8 (toString n)) (words (utf8 (toString n))) := by
  cases n with
  | ofNat n => exact Fragment.words [_] (digits_fragment n)
  | negSucc n =>
      have htext : utf8 (toString (Int.negSucc n)) = utf8 "-" ++ utf8 (toString (n + 1)) := utf8_append _ _
      rw [htext]
      exact Fragment.words [_, _] (minus_glue.append (digits_fragment (n + 1)))

/-- The digits of a decimal, with the point in front of its scale. -/
theorem point_fragment (s : Bytes) (hs : s = [] ∨ ∃ n : Nat, s = utf8 (toString n)) (scale n : Nat) :
    ∃ ts : List Lexeme, Fragment (s ++ (utf8 "." ++ fractionDigits scale n)) (ts.map .inl) := by
  have hfraction := word_fragment (fractionDigits_ne_nil scale n) (fractionDigits_word scale n)
  rcases hs with rfl | ⟨m, rfl⟩
  · exact ⟨[_, _], point_glue.append hfraction⟩
  · exact ⟨[_, _, _], (digits_fragment m).between point_glue (by decide) hfraction⟩

/-- A sign in front. -/
theorem sign_fragment (negative : Prop) [Decidable negative] {s : Bytes} (ts : List Lexeme)
    (h : Fragment s (ts.map .inl)) :
    ∃ us : List Lexeme, Fragment ((if negative then utf8 "-" else []) ++ s) (us.map .inl) := by
  by_cases hneg : negative
  · rw [if_pos hneg]
    exact ⟨_ :: ts, minus_glue.append h⟩
  · rw [if_neg hneg]
    exact ⟨ts, h⟩

theorem decimal_words (width scale : Nat) (value : Int) :
    Fragment (decimalToString width scale value) (words (decimalToString width scale value)) := by
  unfold decimalToString
  by_cases hscale : scale = 0
  · rw [if_pos hscale]
    obtain ⟨us, h⟩ := sign_fragment (value < 0) [_] (digits_fragment value.natAbs)
    exact h.words us
  · rw [if_neg hscale]
    have hdigits : ∃ ts : List Lexeme, Fragment
        ((if width > scale then utf8 (toString (value.natAbs / 10 ^ scale)) else []) ++
          (utf8 "." ++ fractionDigits scale (value.natAbs % 10 ^ scale))) (ts.map .inl) := by
      refine point_fragment _ ?_ scale _
      split_ifs with hwidth
      · exact .inr ⟨_, rfl⟩
      · exact .inl rfl
    obtain ⟨ts, hdigits⟩ := hdigits
    obtain ⟨us, h⟩ := sign_fragment (value < 0) ts hdigits
    rw [← List.append_assoc, ← List.append_assoc] at h
    exact h.words us

theorem null_words : Fragment (utf8 "NULL") (words (utf8 "NULL")) :=
  Fragment.words_eq [.word (utf8 "NULL")] (by decide) (by decide) (by decide)

/-- What is inlined for a constant is a fragment. -/
theorem safeLiteralInline_words {v : Value} {lit : Bytes} (h : safeLiteralInline v = some lit) :
    Fragment lit (words lit) := by
  cases v with
  | null t =>
      obtain rfl := Option.some.inj h
      exact null_words
  | hugeint n =>
      obtain rfl := Option.some.inj h
      exact int_words n.toInt
  | uhugeint n =>
      obtain rfl := Option.some.inj h
      exact Fragment.words [_] (digits_fragment n.toNat)
  | decimal w s n =>
      obtain rfl := Option.some.inj h
      exact decimal_words w s n
  | _ => cases h

/-! ## The lexemes of a filter

`Expression.placed` and `TableFilter.placed` are the fragments of the translators, lexeme by lexeme. -/

/-- A constant: its placeholder, or its literal. -/
def placedConstant (v : Value) : List Placed :=
  if isBindableType v.type then [.inr v] else words ((safeLiteralInline v).getD [])

/-- `column op constant`. -/
def placedComparison (column : List Placed) (type : ExpressionType) (v : Value) : List Placed :=
  column ++ (words ((comparisonToSql type).getD []) ++ placedConstant v)

/-- The items of a list. -/
def placedItems : Value → List Value → List Placed
  | v, [] => placedConstant v
  | v, w :: vs => placedConstant v ++ (.inl comma :: placedItems w vs)

/-- `column IN (…)`; no column appears in `(1=0)`. -/
def placedList (column : List Placed) : List Value → List Placed
  | [] => words (utf8 "(1=0)")
  | v :: vs => column ++ (.inl (keyword "IN") :: paren (placedItems v vs))

/-- Parts in parentheses, with the separator between them. -/
def joinPlaced (sep : Lexeme) : List (List Placed) → List Placed
  | [] => []
  | [part] => paren part
  | part :: next :: parts => paren part ++ .inl sep :: joinPlaced sep (next :: parts)

/-- The separator of a conjunction. -/
def connectiveWord : ExpressionType → Lexeme
  | .conjunctionOr => keyword "OR"
  | _ => keyword "AND"

mutual
/-- The lexemes of a bound expression. -/
def Expression.placed (column : List Placed) : Expression → List Placed
  | .boundComparison type left right =>
      if isColumnSubject left then (tryGetConstant right).elim [] (placedComparison column type)
      else (tryGetConstant left).elim [] (placedComparison column (flipComparisonExpression type))
  | .boundOperator .compareIn (_ :: items) => placedList column (items.filterMap tryGetConstant)
  | .boundOperator .operatorIsNull _ => column ++ words (utf8 " IS NULL")
  | .boundOperator .operatorIsNotNull _ => column ++ words (utf8 " IS NOT NULL")
  | .boundConjunction type children => joinPlaced (connectiveWord type) (Expression.placedAll column children)
  | _ => []

def Expression.placedAll (column : List Placed) : List Expression → List (List Placed)
  | [] => []
  | e :: es => e.placed column :: Expression.placedAll column es
end

mutual
/-- The lexemes of a filter. -/
def TableFilter.placed (column : List Placed) : TableFilter → List Placed
  | .constantComparison type v => placedComparison column type v
  | .isNull => column ++ words (utf8 " IS NULL")
  | .isNotNull => column ++ words (utf8 " IS NOT NULL")
  | .conjunctionAnd fs => joinPlaced (keyword "AND") (TableFilter.placedAll column fs)
  | .conjunctionOr fs => joinPlaced (keyword "OR") (TableFilter.placedAll column fs)
  | .inFilter values => placedList column values
  | .optionalFilter (some f) => f.placed column
  | .expressionFilter (some e) => e.placed column
  | _ => []

def TableFilter.placedAll (column : List Placed) : List TableFilter → List (List Placed)
  | [] => []
  | f :: fs => f.placed column :: TableFilter.placedAll column fs
end

/-! ## The translators write these lexemes -/

/-- The fragment has the lexemes, and its constants are the parameters added. -/
def Writes (frag : Bytes) (params params' : List Value) (ps : List Placed) : Prop :=
  Fragment frag ps ∧ params' = params ++ constants ps

section Writes

variable {columnName : Bytes} {column : List Placed} (hcolumn : Fragment columnName column)
  (hconst : constants column = [])

/-- The operators, between blanks. -/
theorem comparisonToSql_glue {type : ExpressionType} {op : Bytes} (h : comparisonToSql type = some op) :
    ∃ ts, Glue (utf8 " " ++ op ++ utf8 " ") ts ∧ words op = ts.map .inl := by
  cases type <;> simp only [comparisonToSql, Option.some.injEq, reduceCtorEq] at h <;> subst h
  · exact ⟨[.symbol 0x3D], by decide, by decide⟩
  · exact ⟨[.symbol 0x3C, .symbol 0x3E], by decide, by decide⟩
  · exact ⟨[.symbol 0x3C], by decide, by decide⟩
  · exact ⟨[.symbol 0x3E], by decide, by decide⟩
  · exact ⟨[.symbol 0x3C, .symbol 0x3D], by decide, by decide⟩
  · exact ⟨[.symbol 0x3E, .symbol 0x3D], by decide, by decide⟩

theorem placeholder_fragment (v : Value) : Fragment (utf8 "?") [.inr v] := by
  have hlex : lex (utf8 "?") = some [.param] := by decide
  exact ⟨hlex, rfl, by simp⟩

/-- A bound constant is a placeholder, and adds itself. -/
theorem placedConstant_bound {v : Value} (h : isBindableType v.type = true) :
    Fragment (utf8 "?") (placedConstant v) ∧ constants (placedConstant v) = [v] := by
  rw [placedConstant, if_pos h]
  exact ⟨placeholder_fragment v, rfl⟩

/-- An inlined one adds nothing. -/
theorem placedConstant_inlined {v : Value} {lit : Bytes} (h : ¬isBindableType v.type = true)
    (hlit : safeLiteralInline v = some lit) :
    Fragment lit (placedConstant v) ∧ constants (placedConstant v) = [] := by
  rw [placedConstant, if_neg h, hlit]
  exact ⟨safeLiteralInline_words hlit, constants_words lit⟩

include hcolumn hconst

theorem emitComparison_writes {type : ExpressionType} {op : Bytes} (hop : comparisonToSql type = some op)
    {v : Value} {params params' : List Value} {frag : Bytes}
    (h : emitComparison columnName op v params = some (frag, params')) :
    Writes frag params params' (placedComparison column type v) := by
  obtain ⟨ts, hglue, hwords⟩ := comparisonToSql_glue hop
  have hne : utf8 " " ++ op ++ utf8 " " ≠ [] := List.append_ne_nil_of_right_ne_nil _ (by decide)
  have hplaced : placedComparison column type v = column ++ (ts.map .inl ++ placedConstant v) := by
    rw [placedComparison, hop, Option.getD_some, hwords]
  rw [hplaced]
  unfold emitComparison at h
  split_ifs at h with hb
  · obtain ⟨rfl, rfl⟩ := Prod.mk.inj (Option.some.inj h)
    obtain ⟨hfrag, hadd⟩ := placedConstant_bound hb
    have htext : columnName ++ utf8 " " ++ op ++ utf8 " ?" =
        columnName ++ (utf8 " " ++ op ++ utf8 " " ++ utf8 "?") := by
      simp only [List.append_assoc]
      rfl
    refine ⟨htext ▸ hcolumn.between hglue hne hfrag, ?_⟩
    rw [constants_append, constants_append, hconst, constants_inl, hadd]
    rfl
  · obtain ⟨lit, hlit, heq⟩ := Option.map_eq_some_iff.mp h
    obtain ⟨rfl, rfl⟩ := Prod.mk.inj heq
    obtain ⟨hfrag, hadd⟩ := placedConstant_inlined hb hlit
    have htext : columnName ++ utf8 " " ++ op ++ utf8 " " ++ lit =
        columnName ++ (utf8 " " ++ op ++ utf8 " " ++ lit) := by
      simp only [List.append_assoc]
    refine ⟨htext ▸ hcolumn.between hglue hne hfrag, ?_⟩
    rw [constants_append, constants_append, hconst, constants_inl, hadd]
    exact (List.append_nil params).symm

omit hcolumn hconst in
/-- One constant of a list, as text and parameters. -/
theorem emitInItems_step {first : Bool} {acc : Bytes} {v : Value} {vs params : List Value} {r : Bytes × List Value}
    (h : emitInItems first acc (v :: vs) params = some r) :
    ∃ text, Fragment text (placedConstant v) ∧
      emitInItems false ((if first then acc else acc ++ utf8 ", ") ++ text) vs
        (params ++ constants (placedConstant v)) = some r := by
  by_cases hb : isBindableType v.type = true
  · obtain ⟨hfrag, hadd⟩ := placedConstant_bound hb
    refine ⟨_, hfrag, ?_⟩
    rw [emitInItems, if_pos hb] at h
    rw [hadd]
    exact h
  · rw [emitInItems, if_neg hb] at h
    cases hlit : safeLiteralInline v with
    | none =>
        rw [hlit] at h
        cases h
    | some lit =>
        rw [hlit] at h
        obtain ⟨hfrag, hadd⟩ := placedConstant_inlined hb hlit
        refine ⟨_, hfrag, ?_⟩
        rw [hadd, List.append_nil]
        exact h

omit hcolumn hconst in
/-- The item loop, behind its first item. -/
theorem emitInItems_writes {v : Value} {vs : List Value} {acc text out : Bytes} {params params' : List Value}
    (hv : Fragment text (placedConstant v))
    (h : emitInItems false (acc ++ text) vs (params ++ constants (placedConstant v)) = some (out, params')) :
    ∃ items, out = acc ++ items ∧ Writes items params params' (placedItems v vs) := by
  induction vs generalizing v acc text params with
  | nil =>
      obtain ⟨rfl, rfl⟩ := Prod.mk.inj (Option.some.inj h)
      exact ⟨text, rfl, hv, rfl⟩
  | cons w vs ih =>
      obtain ⟨text', hw, hrest⟩ := emitInItems_step h
      obtain ⟨items, rfl, hitems, rfl⟩ := ih hw hrest
      refine ⟨text ++ (utf8 ", " ++ items), ?_, hv.between comma_glue (by decide) hitems, ?_⟩
      · simp only [Bool.false_eq_true, if_false, List.append_assoc]
      · rw [placedItems, constants_append, List.append_assoc]
        rfl

theorem emitInList_writes {vs : List Value} {params params' : List Value} {frag : Bytes}
    (h : emitInList columnName vs params = some (frag, params')) :
    Writes frag params params' (placedList column vs) := by
  cases vs with
  | nil =>
      obtain ⟨rfl, rfl⟩ := Prod.mk.inj (Option.some.inj h)
      refine ⟨Fragment.words_eq [lparen, .word [0x31], .symbol 0x3D, .word [0x30], rparen]
        (by decide) (by decide) (by decide), ?_⟩
      rw [placedList, constants_words, List.append_nil]
  | cons v vs =>
      obtain ⟨⟨out, ps⟩, hloop, heq⟩ := Option.map_eq_some_iff.mp h
      obtain ⟨rfl, rfl⟩ := Prod.mk.inj heq
      obtain ⟨text, hv, hrest⟩ := emitInItems_step hloop
      rw [if_pos rfl] at hrest
      obtain ⟨items, rfl, hitems, rfl⟩ := emitInItems_writes hv hrest
      have hopen : utf8 " IN (" = utf8 " IN " ++ utf8 "(" := by decide
      have htext : columnName ++ utf8 " IN (" ++ items ++ utf8 ")" =
          columnName ++ (utf8 " IN " ++ (utf8 "(" ++ items ++ utf8 ")")) := by
        rw [hopen]
        simp only [List.append_assoc]
      refine ⟨htext ▸ hcolumn.between in_glue (by decide) hitems.paren, ?_⟩
      rw [placedList, constants_append, hconst, List.nil_append]
      show _ = params ++ constants (paren (placedItems v vs))
      rw [constants_paren]

theorem isNull_writes (params : List Value) :
    Writes (columnName ++ utf8 " IS NULL") params params (column ++ words (utf8 " IS NULL")) := by
  have htest : Fragment (utf8 " IS NULL") (words (utf8 " IS NULL")) :=
    Fragment.words_eq [keyword "IS", keyword "NULL"] (by decide) (by decide) (by decide)
  refine ⟨hcolumn.append htest (by decide), ?_⟩
  rw [constants_append, hconst, constants_words]
  exact (List.append_nil params).symm

theorem isNotNull_writes (params : List Value) :
    Writes (columnName ++ utf8 " IS NOT NULL") params params (column ++ words (utf8 " IS NOT NULL")) := by
  have htest : Fragment (utf8 " IS NOT NULL") (words (utf8 " IS NOT NULL")) :=
    Fragment.words_eq [keyword "IS", keyword "NOT", keyword "NULL"] (by decide) (by decide) (by decide)
  refine ⟨hcolumn.append htest (by decide), ?_⟩
  rw [constants_append, hconst, constants_words]
  exact (List.append_nil params).symm

end Writes

/-! ## Conjunctions -/

section Conjunction

variable {α : Type} {translate : α → List Value → Option (Bytes × List Value)} {placed : α → List Placed}

/-- **The conjunction loop** writes its parts in parentheses, behind what it has. -/
theorem conjoin_writes {sep : Bytes} {t : Lexeme} (hsep : Glue sep [t]) (hne : sep ≠ []) {child : α}
    {children : List α}
    (hchild : ∀ a ∈ child :: children, ∀ {params frag params'},
      translate a params = some (frag, params') → Writes frag params params' (placed a))
    {acc out : Bytes} {params params' : List Value}
    (h : conjoin translate sep acc (child :: children) params = some (out, params')) :
    ∃ tail, out = (if acc = [] then acc else acc ++ sep) ++ tail ∧
      Writes tail params params' (joinPlaced t ((child :: children).map placed)) := by
  induction children generalizing child acc params with
  | nil =>
      cases hpart : translate child params with
      | none => simp only [conjoin, hpart, reduceCtorEq] at h
      | some r =>
          obtain ⟨part, ps⟩ := r
          obtain ⟨hfrag, rfl⟩ := hchild child (by simp) hpart
          simp only [conjoin, hpart] at h
          obtain ⟨rfl, rfl⟩ := Prod.mk.inj (Option.some.inj h)
          refine ⟨utf8 "(" ++ part ++ utf8 ")", ?_, hfrag.paren, ?_⟩
          · simp only [appendPart, List.append_assoc]
          · exact congrArg (params ++ ·) (constants_paren _).symm
  | cons next children ih =>
      cases hpart : translate child params with
      | none => simp only [conjoin, hpart, reduceCtorEq] at h
      | some r =>
          obtain ⟨part, ps⟩ := r
          obtain ⟨hfrag, rfl⟩ := hchild child (by simp) hpart
          rw [conjoin, hpart] at h
          -- the accumulator is not empty any more, so the next part is separated from it
          obtain ⟨tail, rfl, htail, rfl⟩ := ih (fun a ha => hchild a (List.mem_cons_of_mem _ ha)) h
          rw [if_neg (appendPart_ne_nil _ _ _)]
          refine ⟨utf8 "(" ++ part ++ utf8 ")" ++ (sep ++ tail), ?_,
            hfrag.paren.between hsep hne htail, ?_⟩
          · simp only [appendPart, List.append_assoc]
          · have hjoin : joinPlaced t ((child :: next :: children).map placed) =
                paren (placed child) ++ ([t].map .inl ++ joinPlaced t ((next :: children).map placed)) := rfl
            rw [hjoin, constants_append, constants_paren, List.append_assoc]
            rfl

theorem conjunction_writes {sep : Bytes} {t : Lexeme} (hsep : Glue sep [t]) (hne : sep ≠ []) {children : List α}
    (hchild : ∀ a ∈ children, ∀ {params frag params'},
      translate a params = some (frag, params') → Writes frag params params' (placed a))
    {frag : Bytes} {params params' : List Value}
    (h : (conjoin translate sep [] children params).bind nonemptyFragment = some (frag, params')) :
    Writes frag params params' (joinPlaced t (children.map placed)) := by
  obtain ⟨⟨out, ps⟩, hloop, hout⟩ := Option.bind_eq_some_iff.mp h
  cases children with
  | nil =>
      obtain ⟨rfl, rfl⟩ := Prod.mk.inj (Option.some.inj hloop)
      cases hout
  | cons child children =>
      obtain ⟨tail, rfl, htail⟩ := conjoin_writes hsep hne hchild hloop
      rw [nonemptyFragment] at hout
      split_ifs at hout
      obtain ⟨rfl, rfl⟩ := Prod.mk.inj (Option.some.inj hout)
      exact htail

end Conjunction

/-! ## Bound expressions and filters -/

section Filter

variable {columnName : Bytes} {column : List Placed}

theorem placedAll_eq (es : List Expression) : Expression.placedAll column es = es.map (Expression.placed column) := by
  induction es with
  | nil => rfl
  | cons e es ih => rw [Expression.placedAll, ih, List.map_cons]

theorem filterPlacedAll_eq (fs : List TableFilter) :
    TableFilter.placedAll column fs = fs.map (TableFilter.placed column) := by
  induction fs with
  | nil => rfl
  | cons f fs ih => rw [TableFilter.placedAll, ih, List.map_cons]

theorem filterMap_tryGetConstant (vs : List Value) :
    (vs.map Expression.boundConstant).filterMap tryGetConstant = vs := by
  rw [List.filterMap_map]
  exact List.filterMap_some

/-- The separators of the conjunctions. -/
theorem conjunctionSeparator_glue {type : ExpressionType} {sep : Bytes} (h : conjunctionSeparator type = some sep) :
    Glue sep [connectiveWord type] ∧ sep ≠ [] := by
  cases type <;> simp only [conjunctionSeparator, Option.some.injEq, reduceCtorEq] at h <;> subst h
  · exact ⟨by decide, by decide⟩
  · exact ⟨by decide, by decide⟩

variable (hcolumn : Fragment columnName column) (hconst : constants column = [])

include hcolumn hconst

theorem translateComparison_writes {type : ExpressionType} {left right : Expression} {params params' : List Value}
    {frag : Bytes} (h : translateComparison columnName type left right params = some (frag, params')) :
    Writes frag params params' ((Expression.boundComparison type left right).placed column) := by
  simp only [translateComparison] at h
  rw [Expression.placed]
  split_ifs at h with hsides hleft
  · rw [if_pos hleft]
    cases hc : tryGetConstant right with
    | none => simp only [hc, reduceCtorEq] at h
    | some c =>
        cases hop : comparisonToSql type with
        | none => simp only [hc, hop, reduceCtorEq] at h
        | some op =>
            simp only [hc, hop] at h
            split_ifs at h
            exact emitComparison_writes hcolumn hconst hop h
  · rw [if_neg hleft]
    cases hc : tryGetConstant left with
    | none => simp only [hc, reduceCtorEq] at h
    | some c =>
        cases hop : comparisonToSql (flipComparisonExpression type) with
        | none => simp only [hc, hop, reduceCtorEq] at h
        | some op =>
            simp only [hc, hop] at h
            split_ifs at h
            exact emitComparison_writes hcolumn hconst hop h

theorem translateInList_writes {children : List Expression} {params params' : List Value} {frag : Bytes}
    (h : translateInList columnName children params = some (frag, params')) :
    Writes frag params params' ((Expression.boundOperator .compareIn children).placed column) := by
  rcases children with _ | ⟨subject, _ | ⟨item, items⟩⟩
  · cases h
  · cases h
  · rw [translateInList] at h
    split_ifs at h
    obtain ⟨values, hvalues, hemit⟩ := Option.bind_eq_some_iff.mp h
    rw [inListValues_eq_some hvalues, Expression.placed, filterMap_tryGetConstant]
    exact emitInList_writes hcolumn hconst hemit

/-- **A translated expression** has its lexemes and its constants. -/
theorem translateFilterExpression_writes (e : Expression) :
    ∀ {params : List Value} {frag : Bytes} {params' : List Value},
    translateFilterExpression columnName e params = some (frag, params') →
    Writes frag params params' (e.placed column) := by
  induction e using Expression.tree_induction with
  | boundComparison type left right =>
      intro params frag params' h
      rw [translateFilterExpression] at h
      exact translateComparison_writes hcolumn hconst h
  | boundConjunction type children ih =>
      intro params frag params' h
      rw [translateFilterExpression] at h
      cases hsep : conjunctionSeparator type with
      | none => simp only [hsep, reduceCtorEq] at h
      | some sep =>
          obtain ⟨hglue, hne⟩ := conjunctionSeparator_glue hsep
          simp only [hsep, translateExpressions_eq_conjoin] at h
          rw [Expression.placed, placedAll_eq]
          exact conjunction_writes hglue hne ih h
  | boundOperator type children =>
      intro params frag params' h
      cases type with
      | compareIn =>
          rw [translateFilterExpression] at h
          exact translateInList_writes hcolumn hconst h
      | operatorIsNull =>
          obtain _ | ⟨child, _ | _⟩ := children <;> simp only [translateFilterExpression, reduceCtorEq] at h
          split_ifs at h
          obtain ⟨rfl, rfl⟩ := Prod.mk.inj (Option.some.inj h)
          exact isNull_writes hcolumn hconst _
      | operatorIsNotNull =>
          obtain _ | ⟨child, _ | _⟩ := children <;> simp only [translateFilterExpression, reduceCtorEq] at h
          split_ifs at h
          obtain ⟨rfl, rfl⟩ := Prod.mk.inj (Option.some.inj h)
          exact isNotNull_writes hcolumn hconst _
      | _ => simp only [translateFilterExpression, reduceCtorEq] at h
  | _ =>
      intro params frag params' h
      simp only [translateFilterExpression, reduceCtorEq] at h

/-- **A translated filter** has its lexemes and its constants. -/
theorem translateFilter_writes {api : DuckdbApi} (f : TableFilter) :
    ∀ {params : List Value} {frag : Bytes} {params' : List Value},
    translateFilter api columnName f params = some (frag, params') →
    Writes frag params params' (f.placed column) := by
  induction f using TableFilter.tree_induction with
  | constantComparison type constant =>
      intro params frag params' h
      rw [translateFilter] at h
      cases hop : comparisonToSql type with
      | none => simp only [hop, reduceCtorEq] at h
      | some op =>
          simp only [hop] at h
          exact emitComparison_writes hcolumn hconst hop h
  | isNull =>
      intro params frag params' h
      obtain ⟨rfl, rfl⟩ := Prod.mk.inj (Option.some.inj h)
      exact isNull_writes hcolumn hconst _
  | isNotNull =>
      intro params frag params' h
      obtain ⟨rfl, rfl⟩ := Prod.mk.inj (Option.some.inj h)
      exact isNotNull_writes hcolumn hconst _
  | conjunctionAnd fs ih =>
      intro params frag params' h
      rw [translateFilter, translateFilters_eq_conjoin] at h
      rw [TableFilter.placed, filterPlacedAll_eq]
      exact conjunction_writes (by decide) (by decide) ih h
  | conjunctionOr fs ih =>
      intro params frag params' h
      rw [translateFilter, translateFilters_eq_conjoin] at h
      rw [TableFilter.placed, filterPlacedAll_eq]
      exact conjunction_writes (by decide) (by decide) ih h
  | inFilter values =>
      intro params frag params' h
      exact emitInList_writes hcolumn hconst h
  | optionalSome f ih =>
      intro params frag params' h
      exact ih h
  | expressionFilter e =>
      intro params frag params' h
      simp only [translateFilter] at h
      split_ifs at h
      cases e with
      | none => cases h
      | some e => exact translateFilterExpression_writes hcolumn hconst e h
  | _ =>
      intro params frag params' h
      cases h

end Filter

end FirebirdScan
