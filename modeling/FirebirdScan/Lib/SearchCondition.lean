import Mathlib.Data.List.Basic

/-!
# `Lib.SearchCondition` — SQL search conditions over a row

A search condition is a boolean combination of comparisons, `IN` lists and `NULL` tests whose operands are
columns, `?` placeholders and literals. This file has both halves of its meaning:

- **Text.** `Token` is the lexical level, `parse` the grammar: a recursive descent in which `AND` binds
  tighter than `OR` and parentheses restart at the top. `Phrase` is the composable form of "these tokens
  parse to this condition".
- **Truth.** `Cond.eval` is the three-valued meaning. Placeholders take their values from a list, left to
  right, and the rest of the list is handed on.

`Says` joins the two, and its rules build the meaning of a text from the meanings of its parts.

The names of the columns (`κ`) and the values (`V`) are parameters, and so are the comparisons of values
and what counts as `NULL` (`Algebra`).
-/

namespace SearchCondition

/-! ## Three-valued logic -/

/-- An SQL truth value. -/
inductive Truth where
  | true | false | unknown
deriving DecidableEq, Repr

/-- The truth value of a decided test. -/
def Truth.ofBool : Bool → Truth
  | Bool.true => .true
  | Bool.false => .false

def Truth.not : Truth → Truth
  | .true => .false
  | .false => .true
  | .unknown => .unknown

def Truth.and : Truth → Truth → Truth
  | .true, t => t
  | .false, _ => .false
  | .unknown, .false => .false
  | .unknown, _ => .unknown

def Truth.or : Truth → Truth → Truth
  | .true, _ => .true
  | .false, t => t
  | .unknown, .true => .true
  | .unknown, _ => .unknown

@[simp] theorem Truth.ofBool_eq_true {b : Bool} : Truth.ofBool b = .true ↔ b = Bool.true := by
  cases b <;> simp [Truth.ofBool]

theorem Truth.ofBool_inj {b c : Bool} : Truth.ofBool b = Truth.ofBool c ↔ b = c := by
  cases b <;> cases c <;> decide

@[simp] theorem Truth.and_true (t : Truth) : t.and .true = t := by cases t <;> rfl

@[simp] theorem Truth.or_false (t : Truth) : t.or .false = t := by cases t <;> rfl

@[simp] theorem Truth.and_eq_true {s t : Truth} : s.and t = .true ↔ s = .true ∧ t = .true := by
  cases s <;> cases t <;> simp [Truth.and]

@[simp] theorem Truth.or_eq_true {s t : Truth} : s.or t = .true ↔ s = .true ∨ t = .true := by
  cases s <;> cases t <;> simp [Truth.or]

/-- A binary connective, with its truth function and its neutral value. -/
inductive Connective where
  | and | or
deriving DecidableEq, Repr

def Connective.apply : Connective → Truth → Truth → Truth
  | .and => Truth.and
  | .or => Truth.or

/-- The value of a connective over no operands. -/
def Connective.unit : Connective → Truth
  | .and => .true
  | .or => .false

@[simp] theorem Connective.apply_unit (k : Connective) (t : Truth) : k.apply t k.unit = t := by
  cases k <;> simp [Connective.apply, Connective.unit]

/-! ## Comparisons -/

inductive CompareOp where
  | eq | ne | lt | gt | le | ge
deriving DecidableEq, Repr

/-- The operator with its operands exchanged. -/
def CompareOp.flip : CompareOp → CompareOp
  | .lt => .gt
  | .gt => .lt
  | .le => .ge
  | .ge => .le
  | op => op

/-- An operator over a type with a decidable order. -/
def CompareOp.holds {α : Type} [LT α] [DecidableLT α] [DecidableEq α] (op : CompareOp) (a b : α) : Bool :=
  match op with
  | .eq => a = b
  | .ne => a ≠ b
  | .lt => a < b
  | .gt => b < a
  | .le => ¬b < a
  | .ge => ¬a < b

theorem CompareOp.holds_flip {α : Type} [LT α] [DecidableLT α] [DecidableEq α] (op : CompareOp) (a b : α) :
    op.flip.holds a b = op.holds b a := by
  cases op <;> simp [CompareOp.flip, CompareOp.holds, eq_comm]

/-- What an operator makes of the outcome of a three-way comparison. -/
def CompareOp.decides : CompareOp → Ordering → Bool
  | .eq, o => o == .eq
  | .ne, o => o != .eq
  | .lt, o => o == .lt
  | .gt, o => o == .gt
  | .le, o => o != .gt
  | .ge, o => o != .lt

/-- Values as a comparison sees them: which are `NULL`, and how the others compare. -/
structure Algebra (V : Type) where
  isNull : V → Bool
  compare : CompareOp → V → V → Bool

variable {V : Type}

/-- A comparison with a `NULL` operand is unknown. -/
def Algebra.test (A : Algebra V) (op : CompareOp) (a b : V) : Truth :=
  if A.isNull a || A.isNull b then .unknown else .ofBool (A.compare op a b)

/-- `a IN (bs)`, the disjunction of the equalities. -/
def Algebra.member (A : Algebra V) (a : V) : List V → Truth
  | [] => .false
  | b :: bs => (A.test .eq a b).or (A.member a bs)

/-- A disjunction of equalities is true when one of them is. -/
theorem Algebra.member_eq_true {A : Algebra V} {a : V} {bs : List V} :
    A.member a bs = .true ↔ ∃ b ∈ bs, A.test .eq a b = .true := by
  induction bs with
  | nil => simp [Algebra.member]
  | cons b bs ih => simp [Algebra.member, ih]

/-- Two algebras that agree on the values tested give the same truth value. -/
theorem Algebra.test_congr {A B : Algebra V} (hnull : A.isNull = B.isNull) {op : CompareOp} {a b : V}
    (h : A.isNull a = false → A.isNull b = false → A.compare op a b = B.compare op a b) :
    A.test op a b = B.test op a b := by
  unfold Algebra.test
  rw [← hnull]
  cases ha : A.isNull a with
  | true => simp
  | false =>
      cases hb : A.isNull b with
      | true => simp
      | false => simp [h ha hb]

/-- So do algebras that agree on equality, for a membership. -/
theorem Algebra.member_congr {A B : Algebra V} (hnull : A.isNull = B.isNull) {a : V} {bs : List V}
    (h : ∀ b ∈ bs, A.isNull a = false → A.isNull b = false → A.compare .eq a b = B.compare .eq a b) :
    A.member a bs = B.member a bs := by
  induction bs with
  | nil => rfl
  | cons b bs ih =>
      obtain ⟨hb, hbs⟩ := List.forall_mem_cons.mp h
      rw [Algebra.member, Algebra.member, Algebra.test_congr hnull hb, ih hbs]

/-! ## Conditions -/

variable {κ : Type}

inductive Operand (κ V : Type) where
  | column (name : κ)
  | param
  | literal (value : V)
deriving DecidableEq

inductive Cond (κ V : Type) where
  | compare (a : Operand κ V) (op : CompareOp) (b : Operand κ V)
  | inList (negated : Bool) (a : Operand κ V) (items : List (Operand κ V))
  | isNull (negated : Bool) (a : Operand κ V)
  | binary (k : Connective) (c d : Cond κ V)

/-- An operand's value on a row; a placeholder takes the next parameter. -/
def Operand.eval (row : κ → V) : Operand κ V → List V → Option (V × List V)
  | .column k, ps => some (row k, ps)
  | .param, p :: ps => some (p, ps)
  | .param, [] => none
  | .literal v, ps => some (v, ps)

@[simp] theorem Operand.eval_column (row : κ → V) (k : κ) (ps : List V) :
    Operand.eval row (.column k) ps = some (row k, ps) := rfl

def Operand.evalList (row : κ → V) : List (Operand κ V) → List V → Option (List V × List V)
  | [], ps => some ([], ps)
  | o :: os, ps =>
      (o.eval row ps).bind fun (v, ps) => (Operand.evalList row os ps).map fun (vs, ps) => (v :: vs, ps)

/-- Negate a truth value on demand. -/
def Truth.negateIf (negated : Bool) (t : Truth) : Truth := if negated then t.not else t

@[simp] theorem Truth.negateIf_ofBool {negated b : Bool} :
    (Truth.ofBool b).negateIf negated = .ofBool (b ^^ negated) := by
  cases negated <;> cases b <;> rfl

/-- The truth value on a row, and the parameters left over. `none` when the placeholders
    outnumber the parameters. -/
def Cond.eval (A : Algebra V) (row : κ → V) : Cond κ V → List V → Option (Truth × List V)
  | .compare a op b, ps =>
      (a.eval row ps).bind fun (u, ps) => (b.eval row ps).map fun (v, ps) => (A.test op u v, ps)
  | .inList negated a items, ps =>
      (a.eval row ps).bind fun (u, ps) =>
        (Operand.evalList row items ps).map fun (vs, ps) => ((A.member u vs).negateIf negated, ps)
  | .isNull negated a, ps =>
      (a.eval row ps).map fun (u, ps) => ((Truth.ofBool (A.isNull u)).negateIf negated, ps)
  | .binary k c d, ps =>
      (c.eval A row ps).bind fun (s, ps) => (d.eval A row ps).map fun (t, ps) => (k.apply s t, ps)

/-! ## Tokens and the grammar -/

inductive Token (κ V : Type) where
  | operand (o : Operand κ V)
  | op (o : CompareOp)
  | connective (k : Connective)
  | lparen | rparen | comma | blank
  | kwIn | kwIs | kwNot | kwNull

/-- Is the token anything but white space? -/
def Token.visible : Token κ V → Bool
  | .blank => false
  | _ => true

/-- A parenthesised, comma-separated list of operands, after its opening parenthesis. -/
def operandList : List (Token κ V) → Option (List (Operand κ V) × List (Token κ V))
  | .operand o :: .comma :: ts => (operandList ts).map fun (os, rest) => (o :: os, rest)
  | .operand o :: .rparen :: ts => some ([o], ts)
  | _ => none

/-- The nonterminals: a chain of `OR`s of chains of `AND`s of primaries. -/
inductive Level where
  | primary
  | chain (k : Connective)

/-- What a chain of `k` is a chain of. -/
def Connective.inner : Connective → Level
  | .and => .primary
  | .or => .chain .and

/-- Recursive descent; every call spends one unit of fuel. -/
def parse : Nat → Level → List (Token κ V) → Option (Cond κ V × List (Token κ V))
  | 0, _, _ => none
  | n + 1, .chain k, ts =>
      match parse n k.inner ts with
      | some (c, .connective k' :: rest) =>
          if k' = k then (parse n (.chain k) rest).map fun (d, rest) => (.binary k c d, rest)
          else some (c, .connective k' :: rest)
      | other => other
  | n + 1, .primary, .lparen :: ts =>
      match parse n (.chain .or) ts with
      | some (c, .rparen :: rest) => some (c, rest)
      | _ => none
  | _ + 1, .primary, .operand a :: .op o :: .operand b :: ts => some (.compare a o b, ts)
  | _ + 1, .primary, .operand a :: .kwIn :: .lparen :: ts =>
      (operandList ts).map fun (os, rest) => (.inList false a os, rest)
  | _ + 1, .primary, .operand a :: .kwNot :: .kwIn :: .lparen :: ts =>
      (operandList ts).map fun (os, rest) => (.inList true a os, rest)
  | _ + 1, .primary, .operand a :: .kwIs :: .kwNull :: ts => some (.isNull false a, ts)
  | _ + 1, .primary, .operand a :: .kwIs :: .kwNot :: .kwNull :: ts => some (.isNull true a, ts)
  | _ + 1, .primary, _ => none

/-- The condition a whole token list spells. -/
def read (ts : List (Token κ V)) : Option (Cond κ V) :=
  match parse (3 * ts.length + 3) (.chain .or) (ts.filter Token.visible) with
  | some (c, []) => some c
  | _ => none

/-! ## Phrases -/

/-- How many calls it takes to get from a nonterminal to a primary, plus one. -/
def Level.height : Level → Nat
  | .primary => 1
  | .chain .and => 2
  | .chain .or => 3

/-- `rest` cannot continue a phrase of this level. -/
def Level.EndsAt : Level → List (Token κ V) → Prop
  | .primary, _ => True
  | .chain .and, rest => rest.head? ≠ some (.connective .and)
  | .chain .or, rest => ∀ k, rest.head? ≠ some (.connective k)

/-- The tokens `ts` are a phrase of the level and spell `c`: whatever follows, `parse` reads exactly
    them, given fuel three times their number. -/
def Phrase (l : Level) (ts : List (Token κ V)) (c : Cond κ V) : Prop :=
  ∀ n rest, 3 * ts.length + l.height ≤ n → l.EndsAt rest → parse n l (ts ++ rest) = some (c, rest)

theorem parse_chain {n : Nat} {k : Connective} {ts rest : List (Token κ V)} {c : Cond κ V}
    (h : parse n k.inner ts = some (c, rest)) (hend : rest.head? ≠ some (.connective k)) :
    parse (n + 1) (.chain k) ts = some (c, rest) := by
  rw [parse, h]
  cases rest with
  | nil => rfl
  | cons t rest =>
      cases t with
      | connective k' =>
          have hk : k' ≠ k := fun heq => hend (by simp [heq])
          simp [hk]
      | _ => rfl

/-- What cannot continue a chain cannot continue its operands. -/
theorem endsAt_inner {k : Connective} {rest : List (Token κ V)} (h : (Level.chain k).EndsAt rest) :
    k.inner.EndsAt rest ∧ rest.head? ≠ some (.connective k) := by
  cases k with
  | and => exact ⟨trivial, h⟩
  | or => exact ⟨h .and, h .or⟩

/-- A chain of one operand. -/
theorem Phrase.lift {k : Connective} {ts : List (Token κ V)} {c : Cond κ V} (h : Phrase k.inner ts c) :
    Phrase (.chain k) ts c := by
  intro n rest hn hend
  obtain ⟨hin, hk⟩ := endsAt_inner hend
  have hheight : (Level.chain k).height = k.inner.height + 1 := by cases k <;> rfl
  obtain ⟨n, rfl⟩ : ∃ m, n = m + 1 := ⟨n - 1, by omega⟩
  exact parse_chain (h n rest (by omega) hin) hk

/-- A primary is a phrase of every level. -/
theorem Phrase.top {ts : List (Token κ V)} {c : Cond κ V} (h : Phrase .primary ts c) :
    Phrase (.chain .or) ts c :=
  Phrase.lift (k := .or) (Phrase.lift (k := .and) h)

/-- A longer chain. -/
theorem Phrase.binary {k : Connective} {ts us : List (Token κ V)} {c d : Cond κ V}
    (hc : Phrase k.inner ts c) (hd : Phrase (.chain k) us d) :
    Phrase (.chain k) (ts ++ .connective k :: us) (.binary k c d) := by
  intro n rest hn hend
  have hheight : (Level.chain k).height = k.inner.height + 1 := by cases k <;> rfl
  rw [List.length_append, List.length_cons] at hn
  obtain ⟨n, rfl⟩ : ∃ m, n = m + 1 := ⟨n - 1, by omega⟩
  -- the connective cannot continue the first operand
  have hsep : k.inner.EndsAt (Token.connective k :: (us ++ rest)) := by
    cases k with
    | and => exact trivial
    | or => simp [Connective.inner, Level.EndsAt]
  have hleft := hc n (.connective k :: (us ++ rest)) (by omega) hsep
  have hright := hd n rest (by omega) hend
  rw [List.append_assoc, List.cons_append, parse, hleft]
  simp [hright]

/-- A parenthesised phrase is a primary. -/
theorem Phrase.paren {ts : List (Token κ V)} {c : Cond κ V} (h : Phrase (.chain .or) ts c) :
    Phrase .primary (.lparen :: ts ++ [.rparen]) c := by
  intro n rest hn _
  simp only [List.length_append, List.length_cons, List.length_nil, Level.height] at hn
  obtain ⟨n, rfl⟩ : ∃ m, n = m + 1 := ⟨n - 1, by omega⟩
  have hin := h n (.rparen :: rest) (by simp [Level.height]; omega) (by simp [Level.EndsAt])
  rw [List.append_assoc, List.cons_append, parse, List.singleton_append, hin]

theorem Phrase.compare (a : Operand κ V) (op : CompareOp) (b : Operand κ V) :
    Phrase .primary [.operand a, .op op, .operand b] (.compare a op b) := by
  intro n rest hn _
  obtain ⟨n, rfl⟩ : ∃ m, n = m + 1 := ⟨n - 1, by simp [Level.height] at hn; omega⟩
  rfl

theorem Phrase.isNull (negated : Bool) (a : Operand κ V) :
    Phrase .primary (.operand a :: .kwIs :: (if negated then [.kwNot, .kwNull] else [.kwNull]))
      (.isNull negated a) := by
  intro n rest hn _
  obtain ⟨n, rfl⟩ : ∃ m, n = m + 1 := ⟨n - 1, by simp [Level.height] at hn; omega⟩
  cases negated <;> rfl

/-- The tokens of an operand list, with its closing parenthesis. -/
def itemTokens : Operand κ V → List (Operand κ V) → List (Token κ V)
  | o, [] => [.operand o, .rparen]
  | o, p :: ps => .operand o :: .comma :: itemTokens p ps

theorem operandList_itemTokens (o : Operand κ V) (os : List (Operand κ V)) (rest : List (Token κ V)) :
    operandList (itemTokens o os ++ rest) = some (o :: os, rest) := by
  induction os generalizing o with
  | nil => rfl
  | cons p ps ih => simp [itemTokens, operandList, ih]

theorem Phrase.inList (negated : Bool) (a o : Operand κ V) (os : List (Operand κ V)) :
    Phrase .primary
      (.operand a :: (if negated then [.kwNot] else []) ++ .kwIn :: .lparen :: itemTokens o os)
      (.inList negated a (o :: os)) := by
  intro n rest hn _
  obtain ⟨n, rfl⟩ : ∃ m, n = m + 1 := ⟨n - 1, by simp [Level.height] at hn; omega⟩
  cases negated <;> simp [parse, operandList_itemTokens]

/-- A primary is an operand of every chain. -/
theorem Phrase.inner {k : Connective} {ts : List (Token κ V)} {c : Cond κ V} (h : Phrase .primary ts c) :
    Phrase k.inner ts c := by
  cases k with
  | and => exact h
  | or => exact Phrase.lift (k := .and) h

/-- A chain of `AND`s or of `OR`s is a whole condition. -/
theorem Phrase.whole {k : Connective} {ts : List (Token κ V)} {c : Cond κ V} (h : Phrase (.chain k) ts c) :
    Phrase (.chain .or) ts c := by
  cases k with
  | and => exact Phrase.lift (k := .or) h
  | or => exact h

/-- **A top-level phrase is read back**, white space aside. -/
theorem Phrase.read {lexemes : List (Token κ V)} {c : Cond κ V}
    (h : Phrase (.chain .or) (lexemes.filter Token.visible) c) : read lexemes = some c := by
  have hlen : (lexemes.filter Token.visible).length ≤ lexemes.length := List.length_filter_le _ _
  have hparse := h (3 * lexemes.length + 3) [] (by simp only [Level.height]; omega)
    (by simp [Level.EndsAt])
  rw [List.append_nil] at hparse
  simp [SearchCondition.read, hparse]

/-! ## Text and truth together -/

/-- The lexemes are a phrase of the level that takes exactly the parameters `ps` and has the truth value
    `t row` on every row. -/
def Says (A : Algebra V) (l : Level) (lexemes : List (Token κ V)) (ps : List V) (t : (κ → V) → Truth) : Prop :=
  ∃ c, Phrase l (lexemes.filter Token.visible) c ∧
    ∀ row rest, c.eval A row (ps ++ rest) = some (t row, rest)

section Says

variable {A : Algebra V}

theorem Says.whole {k : Connective} {ts : List (Token κ V)} {ps : List V} {t : (κ → V) → Truth}
    (h : Says A (.chain k) ts ps t) : Says A (.chain .or) ts ps t := by
  obtain ⟨c, hc, he⟩ := h
  exact ⟨c, hc.whole, he⟩

theorem Says.top {ts : List (Token κ V)} {ps : List V} {t : (κ → V) → Truth} (h : Says A .primary ts ps t) :
    Says A (.chain .or) ts ps t := by
  obtain ⟨c, hc, he⟩ := h
  exact ⟨c, hc.top, he⟩

theorem Says.paren {ts : List (Token κ V)} {ps : List V} {t : (κ → V) → Truth}
    (h : Says A (.chain .or) ts ps t) : Says A .primary (.lparen :: ts ++ [.rparen]) ps t := by
  obtain ⟨c, hc, he⟩ := h
  refine ⟨c, ?_, he⟩
  simpa [List.filter_cons, Token.visible] using hc.paren

/-- A chain of one parenthesised condition. -/
theorem Says.single (k : Connective) {ts : List (Token κ V)} {ps : List V} {t : (κ → V) → Truth}
    (h : Says A .primary ts ps t) : Says A (.chain k) ts ps t := by
  obtain ⟨c, hc, he⟩ := h
  exact ⟨c, hc.inner.lift, he⟩

/-- A longer chain: the parameters of the first condition come first. -/
theorem Says.cons (k : Connective) {ts us : List (Token κ V)} {ps qs : List V} {s t : (κ → V) → Truth}
    (hs : Says A .primary ts ps s) (ht : Says A (.chain k) us qs t) :
    Says A (.chain k) (ts ++ .blank :: .connective k :: .blank :: us) (ps ++ qs)
      (fun row => k.apply (s row) (t row)) := by
  obtain ⟨c, hc, hce⟩ := hs
  obtain ⟨d, hd, hde⟩ := ht
  refine ⟨.binary k c d, ?_, ?_⟩
  · simpa [List.filter_cons, Token.visible] using hc.inner.binary hd
  · intro row rest
    simp [Cond.eval, List.append_assoc, hce, hde]

/-- **What a server makes of a text** whose tokens say `t`: the text is read, and is true exactly where
    `t` is. -/
theorem Says.read {ts : List (Token κ V)} {ps : List V} {t : (κ → V) → Truth} (h : Says A (.chain .or) ts ps t) :
    ∃ c, read ts = some c ∧ ∀ row, c.eval A row ps = some (t row, []) := by
  obtain ⟨c, hc, he⟩ := h
  refine ⟨c, hc.read, ?_⟩
  intro row
  have hrow := he row []
  rwa [List.append_nil] at hrow

end Says

/-! ## Conjunctions -/

/-- An operand of a conjunction: its tokens, the parameters it takes, and what it says. -/
structure Conjunct (κ V : Type) where
  tokens : List (Token κ V)
  params : List V
  truth : (κ → V) → Truth

/-- The tokens say it. -/
def Conjunct.Holds (A : Algebra V) (part : Conjunct κ V) : Prop := Says A .primary part.tokens part.params part.truth

/-- The tokens of a conjunction. -/
def conjunctionTokens : List (Conjunct κ V) → List (Token κ V)
  | [] => []
  | [part] => part.tokens
  | part :: parts => part.tokens ++ .blank :: .connective .and :: .blank :: conjunctionTokens parts

/-- One more operand at the end. -/
theorem conjunctionTokens_append {parts : List (Conjunct κ V)} (hne : parts ≠ []) (last : Conjunct κ V) :
    conjunctionTokens (parts ++ [last]) =
      conjunctionTokens parts ++ .blank :: .connective .and :: .blank :: last.tokens := by
  induction parts with
  | nil => exact absurd rfl hne
  | cons part parts ih =>
      cases parts with
      | nil => rfl
      | cons next parts =>
          have htail : conjunctionTokens (next :: (parts ++ [last])) = _ := ih (List.cons_ne_nil _ _)
          show part.tokens ++ .blank :: .connective .and :: .blank :: conjunctionTokens (next :: (parts ++ [last])) =
            (part.tokens ++ .blank :: .connective .and :: .blank :: conjunctionTokens (next :: parts)) ++ _
          rw [htail, List.append_assoc]
          rfl

/-- **A conjunction says what its operands say**, and takes their parameters one after the other. -/
theorem says_conjunction {A : Algebra V} {parts : List (Conjunct κ V)} (hne : parts ≠ [])
    (h : ∀ part ∈ parts, part.Holds A) :
    ∃ t, Says A (.chain .and) (conjunctionTokens parts) (parts.flatMap Conjunct.params) t ∧
      ∀ row, t row = .true ↔ ∀ part ∈ parts, part.truth row = .true := by
  induction parts with
  | nil => exact absurd rfl hne
  | cons part parts ih =>
      obtain ⟨hpart, hparts⟩ := List.forall_mem_cons.mp h
      rcases parts with _ | ⟨next, parts⟩
      · refine ⟨part.truth, ?_, ?_⟩
        · rw [List.flatMap_singleton]
          exact hpart.single .and
        · intro row
          rw [List.forall_mem_singleton]
      · obtain ⟨t, hsays, ht⟩ := ih (List.cons_ne_nil _ _) hparts
        refine ⟨_, hpart.cons .and hsays, ?_⟩
        intro row
        rw [List.forall_mem_cons, ← ht row]
        exact Truth.and_eq_true

end SearchCondition
