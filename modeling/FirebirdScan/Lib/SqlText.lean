import Mathlib.Data.List.Basic

/-!
# `Lib.SqlText` — the lexical structure of SQL text

The lexer works byte by byte: `scan` carries the mode it is in (inside a word, inside a quoted token, behind a
quote that may end one) and returns the lexemes completed. A quote inside a quoted token is doubled. So a text
that is put together from pieces is lexed piece by piece (`lex_append`), as long as the next piece does not
continue the last lexeme of the one before. There are no comments.

`Select.parse` reads lexemes as `SELECT list FROM table [WHERE (c) AND (c) …] [ORDER BY … ROWS …]`. Parentheses
may nest anywhere: `nest` counts them. `Select.table?` and `comparedWith` read less: the table of a statement,
whatever follows it, and the string a column is compared with.
-/

namespace SqlText

/-! ## The lexer -/

inductive Lexeme where
  | word (s : List UInt8)
  | ident (s : List UInt8)
  | string (s : List UInt8)
  | param
  | symbol (c : UInt8)
deriving DecidableEq

/-- The two kinds of quotes: around names, and around strings. -/
inductive Quote where
  | double | single
deriving DecidableEq

def Quote.byte : Quote → UInt8
  | .double => 0x22
  | .single => 0x27

/-- A quoted token. -/
def Quote.lexeme : Quote → List UInt8 → Lexeme
  | .double, s => .ident s
  | .single, s => .string s

/-- Letters, digits, `_` and `$`: keywords, names without quotes, and numbers. -/
def isWordByte (c : UInt8) : Bool :=
  (0x30 ≤ c && c ≤ 0x39) || (0x41 ≤ c && c ≤ 0x5A) || (0x61 ≤ c && c ≤ 0x7A) || c = 0x5F || c = 0x24

def isBlank (c : UInt8) : Bool := c = 0x20 || c = 0x09 || c = 0x0A || c = 0x0D

/-- Where the lexer is. -/
inductive Mode where
  | idle
  | word (s : List UInt8)
  | quoted (quote : Quote) (s : List UInt8)
  | closing (quote : Quote) (s : List UInt8)
deriving DecidableEq

/-- A byte between lexemes. -/
def begin (c : UInt8) : List Lexeme × Mode :=
  if isWordByte c then ([], .word [c])
  else if isBlank c then ([], .idle)
  else if c = 0x22 then ([], .quoted .double [])
  else if c = 0x27 then ([], .quoted .single [])
  else if c = 0x3F then ([.param], .idle)
  else ([.symbol c], .idle)

/-- A lexeme is complete, and the byte behind it is read. -/
def completed (t : Lexeme) (c : UInt8) : List Lexeme × Mode := (t :: (begin c).1, (begin c).2)

/-- One byte. -/
def step : Mode → UInt8 → List Lexeme × Mode
  | .idle, c => begin c
  | .word s, c => if isWordByte c then ([], .word (s ++ [c])) else completed (.word s) c
  | .quoted q s, c => if c = q.byte then ([], .closing q s) else ([], .quoted q (s ++ [c]))
  | .closing q s, c => if c = q.byte then ([], .quoted q (s ++ [c])) else completed (q.lexeme s) c

def scan : Mode → List UInt8 → List Lexeme × Mode
  | m, [] => ([], m)
  | m, c :: s => ((step m c).1 ++ (scan (step m c).2 s).1, (scan (step m c).2 s).2)

/-- The lexeme that the end of the text completes; inside quotes there is none. -/
def Mode.flush : Mode → Option (List Lexeme)
  | .idle => some []
  | .word s => some [.word s]
  | .quoted _ _ => none
  | .closing q s => some [q.lexeme s]

/-- The lexemes of a text. -/
def lex (s : List UInt8) : Option (List Lexeme) := (scan .idle s).2.flush.map ((scan .idle s).1 ++ ·)

/-! ## Pieces of text -/

theorem scan_append (m : Mode) (s t : List UInt8) :
    scan m (s ++ t) = ((scan m s).1 ++ (scan (scan m s).2 t).1, (scan (scan m s).2 t).2) := by
  induction s generalizing m with
  | nil => rfl
  | cons c s ih => simp [scan, ih]

/-- A byte that continues neither a word nor a quoted token. -/
def isDelimiter (c : UInt8) : Bool := !isWordByte c && c ≠ 0x22 && c ≠ 0x27

/-- Reading a delimiter first completes the lexeme at hand. -/
theorem step_delimiter {m : Mode} {c : UInt8} (hc : isDelimiter c = true) {ts : List Lexeme}
    (hm : m.flush = some ts) : step m c = (ts ++ (begin c).1, (begin c).2) := by
  unfold isDelimiter at hc
  rw [Bool.and_eq_true, Bool.and_eq_true] at hc
  obtain ⟨⟨hword, hdouble⟩, hsingle⟩ := hc
  cases m with
  | idle =>
      obtain rfl := Option.some.inj hm
      rfl
  | word s =>
      obtain rfl := Option.some.inj hm
      have hno : ¬isWordByte c = true := by simpa using hword
      exact if_neg hno
  | quoted q s => cases hm
  | closing q s =>
      obtain rfl := Option.some.inj hm
      have hne : c ≠ q.byte := by
        cases q with
        | double =>
            show c ≠ 0x22
            simpa using hdouble
        | single =>
            show c ≠ 0x27
            simpa using hsingle
      exact if_neg hne

/-- A piece that does not continue the lexeme in front of it: it is empty or begins with a delimiter. -/
def Apart (s : List UInt8) : Prop := ∀ c ∈ s.head?, isDelimiter c = true

instance (s : List UInt8) : Decidable (Apart s) :=
  decidable_of_iff (s.head?.all isDelimiter = true) (Option.all_eq_true _ _)

theorem Apart.append {s t : List UInt8} (hs : Apart s) (ht : Apart t) : Apart (s ++ t) := by
  cases s with
  | nil => exact ht
  | cons c s => exact hs

theorem Apart.front {s : List UInt8} (hs : Apart s) (hne : s ≠ []) (t : List UInt8) : Apart (s ++ t) := by
  cases s with
  | nil => exact absurd rfl hne
  | cons c s => exact hs

theorem lex_eq_some {s : List UInt8} {ts : List Lexeme} :
    lex s = some ts ↔ ∃ last, (scan .idle s).2.flush = some last ∧ (scan .idle s).1 ++ last = ts :=
  Option.map_eq_some_iff

/-- **A text in two pieces**, the second of which begins with a delimiter. -/
theorem lex_append {s t : List UInt8} {ts us : List Lexeme} (hs : lex s = some ts) (ht : lex t = some us)
    (hsep : Apart t) : lex (s ++ t) = some (ts ++ us) := by
  cases t with
  | nil =>
      obtain rfl : [] = us := Option.some.inj ht
      rw [List.append_nil, List.append_nil]
      exact hs
  | cons c t =>
      obtain ⟨last, hlast, rfl⟩ := lex_eq_some.mp hs
      obtain ⟨last', hlast', rfl⟩ := lex_eq_some.mp ht
      have hstep := step_delimiter (hsep c rfl) hlast
      have hscan : scan .idle (s ++ c :: t) =
          ((scan .idle s).1 ++ (last ++ (scan .idle (c :: t)).1), (scan .idle (c :: t)).2) := by
        rw [scan_append, scan, hstep, scan, List.append_assoc]
        rfl
      rw [lex_eq_some, hscan]
      refine ⟨last', hlast', ?_⟩
      simp only [List.append_assoc]

/-- The first piece keeps its lexemes in a text of two pieces. -/
theorem lex_append_inv {s t : List UInt8} {ts us : List Lexeme} (hs : lex s = some us)
    (hsep : Apart t) (h : lex (s ++ t) = some ts) :
    ∃ vs, lex t = some vs ∧ ts = us ++ vs := by
  cases ht : lex t with
  | some vs =>
      have hall := lex_append hs ht hsep
      exact ⟨vs, rfl, (Option.some.inj (hall.symm.trans h)).symm⟩
  | none =>
      exfalso
      rcases t with _ | ⟨c, t⟩
      · cases ht
      · obtain ⟨last, hlast, rfl⟩ := lex_eq_some.mp hs
        obtain ⟨last', hlast', -⟩ := lex_eq_some.mp h
        -- the mode at the end is the one that the second piece ends in by itself
        have hmode : (scan .idle (s ++ c :: t)).2 = (scan .idle (c :: t)).2 := by
          rw [scan_append, scan, step_delimiter (hsep c rfl) hlast, scan]
          rfl
        rw [hmode] at hlast'
        have hsome : lex (c :: t) = some _ := lex_eq_some.mpr ⟨last', hlast', rfl⟩
        rw [hsome] at ht
        cases ht

/-- A text that is lexed and ends in a symbol that is no quote has that symbol as its last lexeme. -/
theorem lex_symbol {s : List UInt8} {c : UInt8} {ts : List Lexeme} (hc : isDelimiter c = true)
    (hsymbol : begin c = ([.symbol c], .idle)) (h : lex (s ++ [c]) = some ts) : ∃ us, ts = us ++ [.symbol c] := by
  obtain ⟨last, hlast, rfl⟩ := lex_eq_some.mp h
  rw [scan_append] at hlast ⊢
  show ∃ us, (scan .idle s).1 ++ ((step (scan .idle s).2 c).1 ++ []) ++ last = _
  change (step (scan .idle s).2 c).2.flush = some last at hlast
  cases hmode : (scan .idle s).2.flush with
  | some before =>
      rw [step_delimiter hc hmode, hsymbol] at hlast ⊢
      obtain rfl := Option.some.inj hlast
      exact ⟨(scan .idle s).1 ++ before, by simp⟩
  | none =>
      -- inside quotes the text would not be lexed
      exfalso
      cases hm : (scan .idle s).2 with
      | idle => rw [hm] at hmode; cases hmode
      | word w => rw [hm] at hmode; cases hmode
      | closing q w => rw [hm] at hmode; cases hmode
      | quoted q w =>
          have hne : c ≠ q.byte := by
            rintro rfl
            cases q with
            | double => cases hc
            | single => cases hc
          rw [hm, step, if_neg hne] at hlast
          cases hlast

/-- A text that ends between lexemes. -/
def Whole (s : List UInt8) (ts : List Lexeme) : Prop := scan .idle s = (ts, .idle)

instance (s : List UInt8) (ts : List Lexeme) : Decidable (Whole s ts) := inferInstanceAs (Decidable (_ = _))

/-- Behind such a text anything may follow. -/
theorem Whole.lex_append {s t : List UInt8} {ts us : List Lexeme} (hs : Whole s ts) (ht : lex t = some us) :
    lex (s ++ t) = some (ts ++ us) := by
  obtain ⟨last, hlast, rfl⟩ := lex_eq_some.mp ht
  rw [lex_eq_some, scan_append, hs]
  exact ⟨last, hlast, List.append_assoc _ _ _⟩

/-- The lexemes of a text; of one that ends inside quotes, those in front of them. -/
def readLexemes (s : List UInt8) : List Lexeme := (scan .idle s).1 ++ ((scan .idle s).2.flush).getD []

/-- A piece is read the same whatever follows it behind a delimiter. -/
theorem readLexemes_append {s : List UInt8} {ts : List Lexeme} (hs : lex s = some ts) {t : List UInt8}
    (hsep : Apart t) : ∃ us, readLexemes (s ++ t) = ts ++ us := by
  obtain ⟨last, hlast, rfl⟩ := lex_eq_some.mp hs
  rcases t with _ | ⟨c, t⟩
  · refine ⟨[], ?_⟩
    rw [List.append_nil, List.append_nil, readLexemes, hlast]
    rfl
  · have hstep := step_delimiter (hsep c rfl) hlast
    refine ⟨(begin c).1 ++ ((scan (begin c).2 t).1 ++ ((scan (begin c).2 t).2.flush).getD []), ?_⟩
    rw [readLexemes, scan_append, scan, hstep]
    simp only [List.append_assoc]

/-! ## Words and quoted tokens -/

theorem scan_word {s : List UInt8} (hs : ∀ c ∈ s, isWordByte c = true) (acc : List UInt8) :
    scan (.word acc) s = ([], .word (acc ++ s)) := by
  induction s generalizing acc with
  | nil =>
      rw [List.append_nil]
      rfl
  | cons c s ih =>
      have hstep : step (.word acc) c = ([], .word (acc ++ [c])) := if_pos (hs c (by simp))
      rw [scan, hstep, ih (fun d hd => hs d (by simp [hd])), List.append_assoc]
      rfl

/-- A text of word bytes is a word. -/
theorem lex_word {s : List UInt8} (hne : s ≠ []) (hs : ∀ c ∈ s, isWordByte c = true) :
    lex s = some [.word s] := by
  obtain ⟨c, s, rfl⟩ := List.exists_cons_of_ne_nil hne
  have hstep : step .idle c = ([], .word [c]) := if_pos (hs c (by simp))
  rw [lex_eq_some, scan, hstep, scan_word fun d hd => hs d (by simp [hd])]
  exact ⟨_, rfl, rfl⟩

/-- The body of a quoted token, with the quotes in it doubled. -/
theorem scan_quoted (q : Quote) (s acc : List UInt8) :
    scan (.quoted q acc) (s.flatMap fun c => if c = q.byte then [q.byte, c] else [c]) =
      ([], .quoted q (acc ++ s)) := by
  induction s generalizing acc with
  | nil =>
      rw [List.append_nil]
      rfl
  | cons c s ih =>
      have hstep : scan (.quoted q acc) (if c = q.byte then [q.byte, c] else [c]) =
          ([], .quoted q (acc ++ [c])) := by
        by_cases hc : c = q.byte
        · subst hc
          simp only [if_true, scan, step, List.append_nil]
        · simp only [hc, if_false, scan, step, List.append_nil]
      rw [List.flatMap_cons, scan_append, hstep, ih, List.append_assoc]
      rfl

/-- **A quoted token reads back as its content.** -/
theorem lex_quoted (q : Quote) (s : List UInt8) :
    lex (q.byte :: (s.flatMap fun c => if c = q.byte then [q.byte, c] else [c]) ++ [q.byte]) =
      some [q.lexeme s] := by
  have hopen : step .idle q.byte = ([], .quoted q []) := by cases q <;> rfl
  have hclose : scan (.quoted q s) [q.byte] = ([], .closing q s) := by
    simp only [scan, step, if_true, List.append_nil]
  rw [lex_eq_some, List.cons_append, scan, hopen, scan_append, scan_quoted]
  simp only [List.nil_append, hclose]
  exact ⟨_, rfl, rfl⟩

/-! ### Quoted tokens between other text -/

theorem begin_mode_ne_closing (c : UInt8) (q : Quote) (s : List UInt8) : (begin c).2 ≠ .closing q s := by
  unfold begin
  split_ifs <;> exact nofun

/-- A text that ends behind a closing quote ends with that quote. -/
theorem getLast?_of_closing {front : List UInt8} {q : Quote} {s : List UInt8}
    (h : (scan .idle front).2 = .closing q s) : front.getLast? = some q.byte := by
  rcases List.eq_nil_or_concat front with rfl | ⟨init, c, rfl⟩
  · cases h
  · rw [List.concat_eq_append] at h ⊢
    rw [scan_append] at h
    change (step (scan .idle init).2 c).2 = .closing q s at h
    rw [List.getLast?_concat]
    cases hm : (scan .idle init).2 with
    | idle =>
        rw [hm] at h
        exact absurd h (begin_mode_ne_closing c q s)
    | word w =>
        rw [hm, step] at h
        split_ifs at h
        exact absurd h (begin_mode_ne_closing c q s)
    | quoted q' w =>
        rw [hm, step] at h
        split_ifs at h with hc
        obtain ⟨rfl, -⟩ := Mode.closing.inj h
        exact congrArg some hc
    | closing q' w =>
        rw [hm, step] at h
        split_ifs at h
        exact absurd h (begin_mode_ne_closing c q s)

/-- An opening quote completes the lexeme at hand, unless it doubles a quote. -/
theorem step_quote {m : Mode} {q : Quote} {last : List Lexeme} (hm : m.flush = some last)
    (hne : ∀ s, m ≠ .closing q s) : step m q.byte = (last, .quoted q []) := by
  have hbegin : begin q.byte = ([], .quoted q []) := by cases q <;> rfl
  have hword : ¬isWordByte q.byte = true := by cases q <;> decide
  cases m with
  | idle =>
      obtain rfl := Option.some.inj hm
      exact hbegin
  | word s =>
      obtain rfl := Option.some.inj hm
      rw [step, if_neg hword, completed, hbegin]
  | quoted q' s => cases hm
  | closing q' s =>
      obtain rfl := Option.some.inj hm
      have hother : ¬q.byte = q'.byte := by
        intro hbyte
        have hq : q = q' := by
          cases q <;> cases q' <;> first | rfl | cases hbyte
        exact hne s (by rw [hq])
      rw [step, if_neg hother, completed, hbegin]

/-- Behind a closing quote, a text that does not begin with the quote is lexed by itself. -/
theorem scan_closing {q : Quote} {r : List UInt8} (hr : r.head? ≠ some q.byte) (s : List UInt8) {us : List Lexeme}
    (hlex : lex r = some us) :
    ∃ last, (scan (.closing q s) r).2.flush = some last ∧ (scan (.closing q s) r).1 ++ last = q.lexeme s :: us := by
  cases r with
  | nil =>
      obtain rfl : [] = us := Option.some.inj hlex
      exact ⟨_, rfl, rfl⟩
  | cons c r =>
      obtain ⟨last, hlast, rfl⟩ := lex_eq_some.mp hlex
      have hother : ¬c = q.byte := fun h => hr (congrArg some h)
      have hstep : step (.closing q s) c = completed (q.lexeme s) c := if_neg hother
      rw [scan, hstep]
      exact ⟨last, hlast, rfl⟩

/-- **A quoted token in any text is one lexeme**, whatever its content: in front of it a text that does not end with
    the quote, and behind it one that does not begin with the quote, are lexed as they are without it. -/
theorem lex_quoted_between {front r : List UInt8} {ts us : List Lexeme} (q : Quote) (s : List UInt8)
    (hfront : lex front = some ts) (hend : front.getLast? ≠ some q.byte) (hr : lex r = some us)
    (hhead : r.head? ≠ some q.byte) :
    lex (front ++ (q.byte :: (s.flatMap fun c => if c = q.byte then [q.byte, c] else [c]) ++ [q.byte]) ++ r) =
      some (ts ++ q.lexeme s :: us) := by
  obtain ⟨last, hlast, rfl⟩ := lex_eq_some.mp hfront
  obtain ⟨last', hlast', hus⟩ := scan_closing hhead s hr
  have hopen := step_quote hlast fun w h => hend (getLast?_of_closing h)
  have hclose : scan (.quoted q s) [q.byte] = ([], .closing q s) := by
    simp only [scan, step, if_true, List.append_nil]
  rw [lex_eq_some, List.append_assoc, scan_append, List.cons_append, List.cons_append, scan, hopen, scan_append,
    scan_append, scan_quoted]
  simp only [List.nil_append, hclose]
  exact ⟨last', hlast', by rw [← hus]; simp only [List.append_assoc]⟩

/-! ## Parentheses -/

def lparen : Lexeme := .symbol 0x28
def rparen : Lexeme := .symbol 0x29
def comma : Lexeme := .symbol 0x2C

/-- The depth behind a lexeme; `none` if it closes what is not open. -/
def nextDepth (d : Nat) (t : Lexeme) : Option Nat :=
  if t = lparen then some (d + 1)
  else if t = rparen then if d = 0 then none else some (d - 1)
  else some d

def nest : Nat → List Lexeme → Option Nat
  | d, [] => some d
  | d, t :: ts => (nextDepth d t).bind fun d => nest d ts

/-- Every parenthesis is closed. -/
def Balanced (ts : List Lexeme) : Prop := nest 0 ts = some 0

instance (ts : List Lexeme) : Decidable (Balanced ts) := inferInstanceAs (Decidable (_ = _))

theorem nest_append {ts us : List Lexeme} {d d' : Nat} (h : nest d ts = some d') :
    nest d (ts ++ us) = nest d' us := by
  induction ts generalizing d with
  | nil =>
      obtain rfl := Option.some.inj h
      rfl
  | cons t ts ih =>
      obtain ⟨e, he, hrest⟩ := Option.bind_eq_some_iff.mp h
      rw [List.cons_append, nest, he]
      exact ih hrest

theorem nextDepth_add {d e : Nat} {t : Lexeme} (k : Nat) (h : nextDepth d t = some e) :
    nextDepth (d + k) t = some (e + k) := by
  unfold nextDepth at h ⊢
  split_ifs at h ⊢ with h1 h2 h3 h4
  · obtain rfl := Option.some.inj h
    exact congrArg some (Nat.add_right_comm d k 1)
  · omega
  · obtain rfl := Option.some.inj h
    exact congrArg some (by omega)
  · obtain rfl := Option.some.inj h
    rfl

/-- What nests at one depth nests at a greater one. -/
theorem nest_add {ts : List Lexeme} {d d' : Nat} (k : Nat) (h : nest d ts = some d') :
    nest (d + k) ts = some (d' + k) := by
  induction ts generalizing d with
  | nil =>
      obtain rfl := Option.some.inj h
      rfl
  | cons t ts ih =>
      obtain ⟨e, he, hrest⟩ := Option.bind_eq_some_iff.mp h
      rw [nest, nextDepth_add k he]
      exact ih hrest

theorem Balanced.append {ts us : List Lexeme} (hts : Balanced ts) (hus : Balanced us) : Balanced (ts ++ us) :=
  (nest_append hts).trans hus

theorem Balanced.paren {ts : List Lexeme} (h : Balanced ts) : Balanced (lparen :: ts ++ [rparen]) := by
  have hinner : nest 0 (lparen :: ts ++ [rparen]) = nest 1 [rparen] := nest_append (nest_add 1 h)
  exact hinner

/-! ## `SELECT` statements -/

/-- The parts of a statement. The conditions of the `WHERE` clause come without their parentheses. -/
structure Select where
  items : List (List Lexeme)
  table : List UInt8
  conditions : List (List Lexeme)
  order : Option (List Lexeme × List Lexeme)
deriving DecidableEq

/-- The letters of a keyword, in upper case. -/
def keyword (s : String) : Lexeme := .word (s.toList.map fun c => UInt8.ofNat c.toNat)

namespace Select

/-- The `SELECT` list, at depth `d` inside the item `cur`, up to `FROM`. -/
def itemList : Nat → List Lexeme → List Lexeme → Option (List (List Lexeme) × List Lexeme)
  | _, _, [] => none
  | d, cur, t :: ts =>
      if d = 0 ∧ t = comma then (itemList 0 [] ts).map fun (items, rest) => (cur :: items, rest)
      else if d = 0 ∧ t = keyword "FROM" then some ([cur], ts)
      else (nextDepth d t).bind fun d => itemList d (cur ++ [t]) ts

/-- Parenthesised conditions joined by `AND`, at depth `d` inside the condition `cur`. -/
def conditionList : Nat → List Lexeme → List Lexeme → Option (List (List Lexeme) × List Lexeme)
  | _, _, [] => none
  | d, cur, t :: ts =>
      if d = 0 ∧ t = rparen then
        match ts with
        | t₁ :: t₂ :: ts =>
            if t₁ = keyword "AND" ∧ t₂ = lparen then
              (conditionList 0 [] ts).map fun (conditions, rest) => (cur :: conditions, rest)
            else some ([cur], t₁ :: t₂ :: ts)
        | ts => some ([cur], ts)
      else (nextDepth d t).bind fun d => conditionList d (cur ++ [t]) ts

/-- The `WHERE` clause, if there is one. -/
def whereClause : List Lexeme → Option (List (List Lexeme) × List Lexeme)
  | t₁ :: t₂ :: ts => if t₁ = keyword "WHERE" ∧ t₂ = lparen then conditionList 0 [] ts else some ([], t₁ :: t₂ :: ts)
  | ts => some ([], ts)

/-- The order expression, at depth `d`, up to `ROWS`, and what follows that. -/
def orderExpression : Nat → List Lexeme → List Lexeme → Option (List Lexeme × List Lexeme)
  | _, _, [] => none
  | d, cur, t :: ts =>
      if d = 0 ∧ t = keyword "ROWS" then some (cur, ts)
      else (nextDepth d t).bind fun d => orderExpression d (cur ++ [t]) ts

/-- `n`, or `m TO n`. -/
def rowBounds : List Lexeme → Option (List Lexeme)
  | [.word n] => some [.word n]
  | [.word m, t, .word n] => if t = keyword "TO" then some [.word m, .word n] else none
  | _ => none

/-- The end of the statement. -/
def orderClause : List Lexeme → Option (Option (List Lexeme × List Lexeme))
  | [] => some none
  | t₁ :: t₂ :: ts =>
      if t₁ = keyword "ORDER" ∧ t₂ = keyword "BY" then
        (orderExpression 0 [] ts).bind fun (expression, rows) =>
          (rowBounds rows).map fun bounds => some (expression, bounds)
      else none
  | _ => none

/-- `SELECT list FROM table [WHERE (c) AND …] [ORDER BY … ROWS …]`. -/
def parse : List Lexeme → Option Select
  | [] => none
  | t :: ts =>
      if t = keyword "SELECT" then
        match itemList 0 [] ts with
        | some (items, .ident table :: ts) =>
            (whereClause ts).bind fun (conditions, ts) =>
              (orderClause ts).map fun order => { items, table, conditions, order }
        | _ => none
      else none

/-- The lexemes are an item: a list reads past them. -/
def IsItem (ts : List Lexeme) : Prop := ∀ cur rest, itemList 0 cur (ts ++ rest) = itemList 0 (cur ++ ts) rest

/-- A lexeme that neither ends the item nor nests. -/
theorem isItem_single {t : Lexeme} (hcomma : t ≠ comma) (hfrom : t ≠ keyword "FROM")
    (hdepth : nextDepth 0 t = some 0) : IsItem [t] := by
  intro cur rest
  show itemList 0 cur (t :: rest) = _
  conv_lhs => unfold itemList
  rw [if_neg fun h => hcomma h.2, if_neg fun h => hfrom h.2, hdepth]
  rfl

theorem IsItem.append {ts us : List Lexeme} (hts : IsItem ts) (hus : IsItem us) : IsItem (ts ++ us) := by
  intro cur rest
  rw [List.append_assoc, hts, hus, List.append_assoc]

/-- Inside parentheses an item does not end. -/
theorem itemList_nested {ts : List Lexeme} {d d' : Nat} (h : nest d ts = some d') (cur rest : List Lexeme) :
    itemList (d + 1) cur (ts ++ rest) = itemList (d' + 1) (cur ++ ts) rest := by
  induction ts generalizing d cur with
  | nil =>
      obtain rfl := Option.some.inj h
      rw [List.nil_append, List.append_nil]
  | cons t ts ih =>
      obtain ⟨e, he, hrest⟩ := Option.bind_eq_some_iff.mp h
      have hstep : itemList (d + 1) cur (t :: (ts ++ rest)) = itemList (e + 1) (cur ++ [t]) (ts ++ rest) := by
        conv_lhs => unfold itemList
        rw [if_neg fun h => Nat.succ_ne_zero d h.1, if_neg fun h => Nat.succ_ne_zero d h.1, nextDepth_add 1 he]
        rfl
      rw [List.cons_append, hstep, List.append_cons cur t ts]
      exact ih hrest _

theorem isItem_paren (ts : List Lexeme) (h : Balanced ts) : IsItem (lparen :: ts ++ [rparen]) := by
  intro cur rest
  have hopen : itemList 0 cur (lparen :: (ts ++ ([rparen] ++ rest))) =
      itemList 1 (cur ++ [lparen]) (ts ++ ([rparen] ++ rest)) := rfl
  have hclose (cur : List Lexeme) : itemList 1 cur ([rparen] ++ rest) = itemList 0 (cur ++ [rparen]) rest := rfl
  rw [List.append_assoc, List.cons_append, hopen, itemList_nested h, hclose]
  simp only [List.append_assoc, List.cons_append, List.nil_append]

/-- The lexemes are an order expression. -/
def IsOrder (ts : List Lexeme) : Prop :=
  ∀ cur rest, orderExpression 0 cur (ts ++ rest) = orderExpression 0 (cur ++ ts) rest

/-- The lexemes of a list of items. -/
def itemsLexemes : List Lexeme → List (List Lexeme) → List Lexeme
  | item, [] => item
  | item, next :: items => item ++ comma :: itemsLexemes next items

theorem itemList_items {item : List Lexeme} {items : List (List Lexeme)}
    (h : ∀ i ∈ item :: items, IsItem i) (rest : List Lexeme) :
    itemList 0 [] (itemsLexemes item items ++ keyword "FROM" :: rest) = some (item :: items, rest) := by
  induction items generalizing item with
  | nil =>
      rw [itemsLexemes, h item (by simp), List.nil_append]
      rfl
  | cons next items ih =>
      have hnext := ih fun i hi => h i (List.mem_cons_of_mem _ hi)
      rw [itemsLexemes, List.append_assoc, h item (by simp), List.nil_append, List.cons_append]
      show (itemList 0 [] (itemsLexemes next items ++ keyword "FROM" :: rest)).map _ = _
      rw [hnext]
      rfl

/-- A balanced condition is read past. -/
theorem conditionList_balanced {ts : List Lexeme} {d d' : Nat} (h : nest d ts = some d')
    (cur rest : List Lexeme) : conditionList d cur (ts ++ rest) = conditionList d' (cur ++ ts) rest := by
  induction ts generalizing d cur with
  | nil =>
      obtain rfl := Option.some.inj h
      rw [List.nil_append, List.append_nil]
  | cons t ts ih =>
      obtain ⟨e, he, hrest⟩ := Option.bind_eq_some_iff.mp h
      have hopen : ¬(d = 0 ∧ t = rparen) := by
        rintro ⟨rfl, rfl⟩
        cases he
      have hstep : conditionList d cur (t :: (ts ++ rest)) = conditionList e (cur ++ [t]) (ts ++ rest) := by
        conv_lhs => unfold conditionList
        rw [if_neg hopen, he]
        rfl
      rw [List.cons_append, hstep, List.append_cons cur t ts]
      exact ih hrest _

/-- The lexemes of conditions joined by `AND`. -/
def conditionsLexemes : List Lexeme → List (List Lexeme) → List Lexeme
  | c, [] => lparen :: c ++ [rparen]
  | c, next :: cs => lparen :: c ++ rparen :: keyword "AND" :: conditionsLexemes next cs

/-- What follows does not continue a `WHERE` clause. -/
def EndsWhere (rest : List Lexeme) : Prop := rest.head? ≠ some (keyword "AND")

theorem conditionList_conditions {c : List Lexeme} {cs : List (List Lexeme)}
    (h : ∀ c' ∈ c :: cs, Balanced c') {rest : List Lexeme} (hrest : EndsWhere rest) :
    conditionList 0 [] ((conditionsLexemes c cs).tail ++ rest) = some (c :: cs, rest) := by
  induction cs generalizing c with
  | nil =>
      show conditionList 0 [] (c ++ [rparen] ++ rest) = _
      rw [List.append_assoc, conditionList_balanced (h c (by simp)), List.nil_append]
      rcases rest with _ | ⟨t₁, _ | ⟨t₂, rest⟩⟩
      · rfl
      · rfl
      · have hne : ¬(t₁ = keyword "AND" ∧ t₂ = lparen) := fun ht => hrest (congrArg some ht.1)
        show (if t₁ = keyword "AND" ∧ t₂ = lparen then _ else some ([c], t₁ :: t₂ :: rest)) = _
        rw [if_neg hne]
  | cons next cs ih =>
      have hnext := ih fun c' hc => h c' (List.mem_cons_of_mem _ hc)
      show conditionList 0 [] (c ++ rparen :: keyword "AND" :: conditionsLexemes next cs ++ rest) = _
      rw [List.append_assoc, conditionList_balanced (h c (by simp)), List.nil_append]
      have hopen : conditionsLexemes next cs = lparen :: (conditionsLexemes next cs).tail := by
        cases cs <;> rfl
      rw [hopen]
      show (conditionList 0 [] ((conditionsLexemes next cs).tail ++ rest)).map _ = _
      rw [hnext]
      rfl

/-- The `WHERE` clause of a list of conditions; none for the empty list. -/
def whereLexemes : List (List Lexeme) → List Lexeme
  | [] => []
  | c :: cs => keyword "WHERE" :: conditionsLexemes c cs

theorem whereClause_conditions {cs : List (List Lexeme)} (h : ∀ c ∈ cs, Balanced c) {rest : List Lexeme}
    (hwhere : rest.head? ≠ some (keyword "WHERE")) (hrest : EndsWhere rest) :
    whereClause (whereLexemes cs ++ rest) = some (cs, rest) := by
  cases cs with
  | nil =>
      rcases rest with _ | ⟨t₁, _ | ⟨t₂, rest⟩⟩
      · rfl
      · rfl
      · exact if_neg fun ht => hwhere (congrArg some ht.1)
  | cons c cs =>
      have hlist := conditionList_conditions h hrest
      have hopen : conditionsLexemes c cs = lparen :: (conditionsLexemes c cs).tail := by
        cases cs <;> rfl
      rw [whereLexemes, hopen]
      exact hlist

/-- The end of a statement with an order, or without. -/
def orderLexemes : Option (List Lexeme × List Lexeme) → List Lexeme
  | none => []
  | some (expression, bounds) =>
      keyword "ORDER" :: keyword "BY" :: expression ++ keyword "ROWS" ::
        match bounds with
        | [m, n] => [m, keyword "TO", n]
        | bounds => bounds

/-- An order the grammar knows: by an order expression, and one or two numbers. -/
def IsOrderClause : Option (List Lexeme × List Lexeme) → Prop
  | none => True
  | some (expression, bounds) =>
      IsOrder expression ∧ ((∃ n, bounds = [.word n]) ∨ ∃ m n, bounds = [.word m, .word n])

theorem orderClause_lexemes {order : Option (List Lexeme × List Lexeme)} (h : IsOrderClause order) :
    orderClause (orderLexemes order) = some order := by
  rcases order with _ | ⟨expression, bounds⟩
  · rfl
  · obtain ⟨hexpr, hbounds⟩ := h
    have hread (rows : List Lexeme) :
        orderExpression 0 [] (expression ++ keyword "ROWS" :: rows) = some (expression, rows) := by
      rw [hexpr, List.nil_append]
      rfl
    rcases hbounds with ⟨n, rfl⟩ | ⟨m, n, rfl⟩
    · show (orderExpression 0 [] (expression ++ keyword "ROWS" :: [.word n])).bind _ = _
      rw [hread]
      rfl
    · show (orderExpression 0 [] (expression ++ keyword "ROWS" :: [.word m, keyword "TO", .word n])).bind _ = _
      rw [hread]
      rfl

theorem orderLexemes_head (order : Option (List Lexeme × List Lexeme)) {w : Lexeme} (hw : w ≠ keyword "ORDER") :
    (orderLexemes order).head? ≠ some w := by
  rcases order with _ | ⟨expression, bounds⟩
  · exact nofun
  · exact fun h => hw (Option.some.inj h).symm

/-- The first two clauses. -/
theorem parse_items {item : List Lexeme} {items : List (List Lexeme)} (h : ∀ i ∈ item :: items, IsItem i)
    (table : List UInt8) (rest : List Lexeme) :
    parse (keyword "SELECT" :: (itemsLexemes item items ++ keyword "FROM" :: .ident table :: rest)) =
      (whereClause rest).bind fun (conditions, ts) =>
        (orderClause ts).map fun order => { items := item :: items, table, conditions, order } := by
  rw [parse, if_pos rfl, itemList_items h]

/-- Whatever follows the table, the items are what they are. -/
theorem parse_items_eq {item : List Lexeme} {items : List (List Lexeme)} (h : ∀ i ∈ item :: items, IsItem i)
    {table : List UInt8} {rest : List Lexeme} {select : Select}
    (hparse : parse (keyword "SELECT" :: (itemsLexemes item items ++ keyword "FROM" :: .ident table :: rest)) =
      some select) : select.items = item :: items := by
  rw [parse_items h] at hparse
  obtain ⟨⟨conditions, ts⟩, -, hrest⟩ := Option.bind_eq_some_iff.mp hparse
  obtain ⟨order, -, rfl⟩ := Option.map_eq_some_iff.mp hrest
  rfl

/-- **A statement is read back.** -/
theorem parse_lexemes {item : List Lexeme} {items : List (List Lexeme)} (hitems : ∀ i ∈ item :: items, IsItem i)
    (table : List UInt8) {conditions : List (List Lexeme)} (hconditions : ∀ c ∈ conditions, Balanced c)
    {order : Option (List Lexeme × List Lexeme)} (horder : IsOrderClause order) :
    parse (keyword "SELECT" :: (itemsLexemes item items ++ keyword "FROM" :: .ident table ::
        (whereLexemes conditions ++ orderLexemes order))) =
      some { items := item :: items, table, conditions, order } := by
  rw [parse_items hitems, whereClause_conditions hconditions (orderLexemes_head order (by decide))
    (orderLexemes_head order (by decide))]
  show (orderClause (orderLexemes order)).map _ = _
  rw [orderClause_lexemes horder]
  rfl

/-- The table behind the list, whatever follows it. -/
def table? : List Lexeme → Option (List UInt8)
  | [] => none
  | t :: ts =>
      if t = keyword "SELECT" then
        match itemList 0 [] ts with
        | some (_, .ident table :: _) => some table
        | _ => none
      else none

theorem table?_lexemes {item : List Lexeme} {items : List (List Lexeme)} (h : ∀ i ∈ item :: items, IsItem i)
    (table : List UInt8) (rest : List Lexeme) :
    table? (keyword "SELECT" :: (itemsLexemes item items ++ keyword "FROM" :: .ident table :: rest)) =
      some table := by
  rw [table?, if_pos rfl, itemList_items h]

/-- A condition cannot follow the table without a `WHERE`. -/
theorem parse_and {item : List Lexeme} {items : List (List Lexeme)} (hitems : ∀ i ∈ item :: items, IsItem i)
    (table : List UInt8) (rest : List Lexeme) :
    parse (keyword "SELECT" :: (itemsLexemes item items ++ keyword "FROM" :: .ident table ::
      keyword "AND" :: lparen :: rest)) = none := by
  rw [parse_items hitems]
  rfl

end Select

/-! ## Comparisons with a string -/

/-- How much of `column = 'text'` has been read. -/
inductive Seek where
  | start
  | column
  | equals
  | found (s : List UInt8)
deriving DecidableEq

def Seek.step (name : Lexeme) : Seek → Lexeme → Seek
  | .found s, _ => .found s
  | .equals, .string s => .found s
  | .column, .symbol 0x3D => .equals
  | _, t => if t = name then .column else .start

def seek (name : Lexeme) (ts : List Lexeme) : Seek := ts.foldl (Seek.step name) .start

/-- The first string that the column is compared with. -/
def comparedWith (name : Lexeme) (ts : List Lexeme) : Option (List UInt8) :=
  match seek name ts with
  | .found s => some s
  | _ => none

theorem foldl_found (name : Lexeme) (s : List UInt8) (ts : List Lexeme) :
    ts.foldl (Seek.step name) (.found s) = .found s := by
  induction ts with
  | nil => rfl
  | cons t ts ih => exact ih

/-- Behind `column =`, the string that follows is the one. -/
theorem comparedWith_string {name : Lexeme} {ts : List Lexeme} (h : seek name ts = .equals) (s : List UInt8)
    (rest : List Lexeme) : comparedWith name (ts ++ .string s :: rest) = some s := by
  have hfound : seek name (ts ++ .string s :: rest) = .found s := by
    rw [seek, List.foldl_append, ← seek, h, List.foldl_cons]
    exact foldl_found name s rest
  rw [comparedWith, hfound]

end SqlText
