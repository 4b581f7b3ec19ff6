import FirebirdScan.Client.Metadata
import FirebirdScan.Lib.SqlPlaces

/-!
# `Scanner.ViewAnalysis` — the shape of a view (`AnalyzeViewSource`)

A view without a join, a grouping and an aggregate is taken for simple, and may be read in pages. The source does not
lex the text of a view. It blanks literals and comments, puts the rest into upper case, and searches for words between
blanks.

It does not know of names in double quotes. Where these are plain, the text that it searches is that of the lexer with
literals and comments blank (`shownAlike`), and the answer is right exactly if the keywords that it looks
for are set off by blanks where they occur (`analyzeViewSource_iff`): `JOIN(SELECT` hides a join. In any other text it
finds what it finds in the text with each double quote replaced by an ordinary byte (`namesAsCode`), in which every name
is plain.
-/

namespace FirebirdScan

open SqlPlaces Fields

/-! ## The source -/

/-- `ViewAnalysis`. -/
structure ViewAnalysis where
  inspected : Bool := false
  hasJoin : Bool := false
  hasGroupBy : Bool := false
  hasWhere : Bool := false
  hasAggregate : Bool := false
deriving DecidableEq

/-- The states of the scan over the text. -/
inductive SourceState where
  | code | str | lineComment | blockComment

/-- The scan: literals and comments are blanked, and the rest is put into upper case. -/
def normalizeSource : SourceState → Bytes → Bytes
  | _, [] => []
  | .code, c :: rest =>
      if c = 0x27 then 0x20 :: normalizeSource .str rest
      else
        match rest with
        | [] => [toUpperByte c]
        | n :: rest' =>
            if c = 0x2D ∧ n = 0x2D then 0x20 :: 0x20 :: normalizeSource .lineComment rest'
            else if c = 0x2F ∧ n = 0x2A then 0x20 :: 0x20 :: normalizeSource .blockComment rest'
            else toUpperByte c :: normalizeSource .code (n :: rest')
  | .str, c :: rest =>
      if c = 0x27 then
        match rest with
        | [] => [0x20]
        | n :: rest' =>
            -- a doubled quote: both are blanked, and the literal goes on
            if n = 0x27 then 0x20 :: 0x20 :: normalizeSource .str rest'
            else 0x20 :: normalizeSource .code (n :: rest')
      else 0x20 :: normalizeSource .str rest
  | .lineComment, c :: rest =>
      if c = 0x0A then 0x0A :: normalizeSource .code rest else 0x20 :: normalizeSource .lineComment rest
  | .blockComment, c :: rest =>
      match rest with
      | [] => [0x20]
      | n :: rest' =>
          if c = 0x2A ∧ n = 0x2F then 0x20 :: 0x20 :: normalizeSource .code rest'
          else 0x20 :: normalizeSource .blockComment (n :: rest')

/-! The steps of the scan. -/

theorem normalizeSource_nil (state : SourceState) : normalizeSource state [] = [] := by
  cases state <;> rfl

theorem normalizeSource_opening (rest : Bytes) :
    normalizeSource .code (0x27 :: rest) = 0x20 :: normalizeSource .str rest := by
  cases rest <;> rfl

theorem normalizeSource_last {c : UInt8} (hquote : c ≠ 0x27) : normalizeSource .code [c] = [toUpperByte c] :=
  if_neg hquote

theorem normalizeSource_code {c : UInt8} (hquote : c ≠ 0x27) (n : UInt8) (rest : Bytes) :
    normalizeSource .code (c :: n :: rest) =
      if c = 0x2D ∧ n = 0x2D then 0x20 :: 0x20 :: normalizeSource .lineComment rest
      else if c = 0x2F ∧ n = 0x2A then 0x20 :: 0x20 :: normalizeSource .blockComment rest
      else toUpperByte c :: normalizeSource .code (n :: rest) :=
  if_neg hquote

theorem normalizeSource_closing (n : UInt8) (rest : Bytes) :
    normalizeSource .str (0x27 :: n :: rest) =
      if n = 0x27 then 0x20 :: 0x20 :: normalizeSource .str rest else 0x20 :: normalizeSource .code (n :: rest) := rfl

theorem normalizeSource_str {c : UInt8} (hquote : c ≠ 0x27) (rest : Bytes) :
    normalizeSource .str (c :: rest) = 0x20 :: normalizeSource .str rest := by
  cases rest <;> exact if_neg hquote

theorem normalizeSource_lineComment (c : UInt8) (rest : Bytes) :
    normalizeSource .lineComment (c :: rest) =
      if c = 0x0A then 0x0A :: normalizeSource .code rest else 0x20 :: normalizeSource .lineComment rest := rfl

theorem normalizeSource_blockComment (c n : UInt8) (rest : Bytes) :
    normalizeSource .blockComment (c :: n :: rest) =
      if c = 0x2A ∧ n = 0x2F then 0x20 :: 0x20 :: normalizeSource .code rest
      else 0x20 :: normalizeSource .blockComment (n :: rest) := rfl

/-- `hay`: the text, with every run of whitespace collapsed, between two blanks. -/
def viewHay (src : Bytes) : Bytes := padded isWhitespace 0x20 (normalizeSource .code src)

/-- The aggregates that are searched for. -/
def aggregateNames : List Bytes :=
  [utf8 "COUNT", utf8 "SUM", utf8 "AVG", utf8 "MIN", utf8 "MAX", utf8 "LIST"]

/-- What the search finds in a text that is not empty. -/
def searchView (src : Bytes) : ViewAnalysis where
  inspected := true
  hasJoin := decide (utf8 " JOIN " <:+: viewHay src)
  hasGroupBy := decide (utf8 " GROUP BY " <:+: viewHay src)
  hasWhere := decide (utf8 " WHERE " <:+: viewHay src)
  hasAggregate :=
    (aggregateNames.any fun name => name ++ utf8 "(" <:+: viewHay src) ||
      aggregateNames.any fun name => name ++ utf8 " (" <:+: viewHay src

/-- What the catalog says of the text of a view. -/
inductive ViewSource where
  | raises
  | noRow
  | null
  | text (src : Bytes)

/-- `AnalyzeViewSource`. -/
def analyzeViewSource : ViewSource → ViewAnalysis
  | .text src => if src = [] then {} else searchView src
  | _ => {}

/-- `is_view_simple_for_pagination`. -/
def isViewSimpleForPagination (va : ViewAnalysis) : Bool :=
  va.inspected && !va.hasJoin && !va.hasGroupBy && !va.hasAggregate

/-! ## The scan and the lexer -/

/-- The scan takes a name in double quotes for code. -/
inductive Alike : SourceState → Reading → Prop
  | code : Alike .code .code
  | quoted : Alike .code .quoted
  | str : Alike .str .literal
  | lineComment : Alike .lineComment .lineComment
  | blockComment : Alike .blockComment .blockComment

/-- A byte that begins neither a literal nor a comment. -/
theorem read_code {r : Reading} (hr : Alike .code r) (c : UInt8) (next : Option UInt8) (hquote : c ≠ 0x27)
    (hline : ¬(c = 0x2D ∧ next = some 0x2D)) (hblock : ¬(c = 0x2F ∧ next = some 0x2A)) :
    Alike .code (readByte r c next).2 ∧ Cell.shown ⟨c, (readByte r c next).1⟩ = toUpperByte c := by
  cases hr with
  | code =>
      simp only [readByte]
      rw [if_neg hquote]
      by_cases hname : c = 0x22
      · rw [if_pos hname]
        exact ⟨.quoted, rfl⟩
      · rw [if_neg hname, if_neg hline, if_neg hblock]
        exact ⟨.code, rfl⟩
  | quoted =>
      refine ⟨?_, rfl⟩
      show Alike .code (if c = 0x22 then .code else .quoted)
      split_ifs
      · exact .code
      · exact .quoted

/-- In a plain name nothing begins. -/
theorem plain_quoted {c : UInt8} {s : Bytes} (h : plainNames (places .quoted (c :: s)) = true) :
    c ≠ 0x27 ∧ ¬(c = 0x2D ∧ s.head? = some 0x2D) ∧ ¬(c = 0x2F ∧ s.head? = some 0x2A) := by
  have hmisleads : misleads ⟨c, .quoted⟩ (places (if c = 0x22 then .code else .quoted) s).head? = false := by
    have hfirst := (Bool.and_eq_true_iff.mp h).1
    rw [Bool.not_eq_true'] at hfirst
    exact hfirst
  have hnext (n : UInt8) (hc : c ≠ 0x22) (hs : s.head? = some n) :
      (places (if c = 0x22 then .code else .quoted) s).head? = some ⟨n, .quoted⟩ := by
    obtain ⟨rest, rfl⟩ := List.head?_eq_some_iff.mp hs
    rw [if_neg hc]
    rfl
  refine ⟨?_, ?_, ?_⟩
  · rintro rfl
    cases hmisleads
  · rintro ⟨rfl, hs⟩
    rw [hnext _ (by decide) hs] at hmisleads
    cases hmisleads
  · rintro ⟨rfl, hs⟩
    rw [hnext _ (by decide) hs] at hmisleads
    cases hmisleads

theorem plain_tail {c : UInt8} {s : Bytes} {r : Reading} (h : plainNames (places r (c :: s)) = true) :
    plainNames (places (readByte r c s.head?).2 s) = true :=
  (Bool.and_eq_true_iff.mp h).2

/-- From here the scan blanks what the lexer takes for literals and comments. -/
def ShownAlike (src : Bytes) : Prop :=
  ∀ state r, Alike state r → plainNames (places r src) = true →
    normalizeSource state src = (places r src).map Cell.shown

theorem shownAlike_code {c : UInt8} {rest : Bytes} (hrest : ShownAlike rest) (htail : ShownAlike rest.tail)
    {r : Reading} (hr : Alike .code r) (hplain : plainNames (places r (c :: rest)) = true) :
    normalizeSource .code (c :: rest) = (places r (c :: rest)).map Cell.shown := by
  by_cases hquote : c = 0x27
  · subst hquote
    cases hr with
    | code =>
        rw [normalizeSource_opening]
        exact congrArg (0x20 :: ·) (hrest .str .literal .str (plain_tail hplain))
    | quoted => exact absurd rfl (plain_quoted hplain).1
  · cases rest with
    | nil =>
        have hshown := (read_code hr c none hquote (by simp) (by simp)).2
        rw [normalizeSource_last hquote]
        show [toUpperByte c] = [Cell.shown ⟨c, (readByte r c none).1⟩]
        rw [hshown]
    | cons n rest =>
        by_cases hline : c = 0x2D ∧ n = 0x2D
        · cases hr with
          | code =>
              obtain ⟨rfl, rfl⟩ := hline
              exact congrArg (0x20 :: 0x20 :: ·)
                (htail .lineComment .lineComment .lineComment (plain_tail (plain_tail hplain)))
          | quoted => exact absurd ⟨hline.1, congrArg some hline.2⟩ (plain_quoted hplain).2.1
        by_cases hblock : c = 0x2F ∧ n = 0x2A
        · cases hr with
          | code =>
              obtain ⟨rfl, rfl⟩ := hblock
              exact congrArg (0x20 :: 0x20 :: ·)
                (htail .blockComment .blockComment .blockComment (plain_tail (plain_tail hplain)))
          | quoted => exact absurd ⟨hblock.1, congrArg some hblock.2⟩ (plain_quoted hplain).2.2
        obtain ⟨hnext, hshown⟩ := read_code hr c (some n) hquote
          (fun h => hline ⟨h.1, Option.some.inj h.2⟩) (fun h => hblock ⟨h.1, Option.some.inj h.2⟩)
        rw [normalizeSource_code hquote, if_neg hline, if_neg hblock, hrest .code _ hnext (plain_tail hplain), ← hshown]
        rfl

theorem shownAlike_str {c : UInt8} {rest : Bytes} (hrest : ShownAlike rest) (htail : ShownAlike rest.tail)
    (hplain : plainNames (places .literal (c :: rest)) = true) :
    normalizeSource .str (c :: rest) = (places .literal (c :: rest)).map Cell.shown := by
  by_cases hquote : c = 0x27
  · subst hquote
    cases rest with
    | nil => rfl
    | cons n rest =>
        by_cases hdoubled : n = 0x27
        · subst hdoubled
          exact congrArg (0x20 :: 0x20 :: ·) (htail .str .literal .str (plain_tail (plain_tail hplain)))
        · rw [normalizeSource_closing, if_neg hdoubled, hrest .code .code .code (plain_tail hplain)]
          rfl
  · have hreading : (readByte .literal c rest.head?).2 = .literal := if_neg hquote
    have hinside := plain_tail hplain
    rw [hreading] at hinside
    rw [normalizeSource_str hquote, hrest .str .literal .str hinside, places, hreading]
    rfl

theorem shownAlike_lineComment {c : UInt8} {rest : Bytes} (hrest : ShownAlike rest)
    (hplain : plainNames (places .lineComment (c :: rest)) = true) :
    normalizeSource .lineComment (c :: rest) = (places .lineComment (c :: rest)).map Cell.shown := by
  by_cases hnewline : c = 0x0A
  · subst hnewline
    rw [normalizeSource_lineComment, if_pos rfl]
    exact congrArg (0x0A :: ·) (hrest .code .code .code (plain_tail hplain))
  · have hreading : readByte .lineComment c rest.head? = (.comment, .lineComment) := if_neg hnewline
    have hinside := plain_tail hplain
    rw [hreading] at hinside
    rw [normalizeSource_lineComment, if_neg hnewline, hrest .lineComment .lineComment .lineComment hinside, places, hreading]
    rfl

theorem shownAlike_blockComment {c : UInt8} {rest : Bytes} (hrest : ShownAlike rest) (htail : ShownAlike rest.tail)
    (hplain : plainNames (places .blockComment (c :: rest)) = true) :
    normalizeSource .blockComment (c :: rest) = (places .blockComment (c :: rest)).map Cell.shown := by
  cases rest with
  | nil => rfl
  | cons n rest =>
      by_cases hclose : c = 0x2A ∧ n = 0x2F
      · obtain ⟨rfl, rfl⟩ := hclose
        exact congrArg (0x20 :: 0x20 :: ·) (htail .code .code .code (plain_tail (plain_tail hplain)))
      · have hreading : (readByte .blockComment c (some n)).2 = .blockComment :=
          if_neg fun h => hclose ⟨h.1, Option.some.inj h.2⟩
        have hplaces : places .blockComment (c :: n :: rest) = ⟨c, .comment⟩ :: places .blockComment (n :: rest) := by
          rw [places, List.head?_cons, hreading]
          rfl
        have hinside := plain_tail hplain
        rw [List.head?_cons, hreading] at hinside
        rw [normalizeSource_blockComment, if_neg hclose, hrest .blockComment .blockComment .blockComment hinside, hplaces]
        rfl

/-- **Where names are plain, the scan blanks what the lexer takes for literals and comments.** It looks one byte
    ahead, so the induction carries the text behind that byte as well. -/
theorem shownAlike (src : Bytes) : ShownAlike src := by
  suffices h : ShownAlike src ∧ ShownAlike src.tail from h.1
  have hempty : ShownAlike [] := fun state r _ _ => normalizeSource_nil state
  induction src with
  | nil => exact ⟨hempty, hempty⟩
  | cons c rest ih =>
      obtain ⟨hrest, htail⟩ := ih
      refine ⟨?_, hrest⟩
      intro state r hr hplain
      cases state with
      | code => exact shownAlike_code hrest htail hr hplain
      | str =>
          cases hr
          exact shownAlike_str hrest htail hplain
      | lineComment =>
          cases hr
          exact shownAlike_lineComment hrest hplain
      | blockComment =>
          cases hr
          exact shownAlike_blockComment hrest htail hplain

/-- What the search sees of a text. -/
theorem viewHay_eq {src : Bytes} (hplain : plainNames (places .code src) = true) :
    viewHay src = padded isWhitespace 0x20 ((places .code src).map Cell.shown) := by
  unfold viewHay
  rw [shownAlike src .code .code .code hplain]

/-! ## What the search finds -/

/-- What stands between blanks, where literals and comments are blank. -/
def viewFields (src : Bytes) : List Bytes := fields isWhitespace ((places .code src).map Cell.shown)

/-- The name of an aggregate shows before a parenthesis. -/
def CallShown (src : Bytes) : Prop :=
  ∃ name ∈ aggregateNames, name ++ utf8 "(" <:+: spaced 0x20 (viewFields src) ∨
    name ++ utf8 " (" <:+: spaced 0x20 (viewFields src)

def viewKeywords : List Bytes := [utf8 "JOIN", utf8 "GROUP", utf8 "BY", utf8 "WHERE"] ++ aggregateNames

theorem viewKeywords_words :
    ∀ k ∈ viewKeywords, k ≠ [] ∧ ∀ c ∈ k, SqlText.isWordByte c = true ∧ isWhitespace c = false := by
  decide +kernel

theorem isField_keyword {k : Bytes} (hk : k ∈ viewKeywords) : IsField isWhitespace k :=
  ⟨(viewKeywords_words k hk).1, fun c hc => ((viewKeywords_words k hk).2 c hc).2⟩

theorem aggregateNames_subset {name : Bytes} (hname : name ∈ aggregateNames) : name ∈ viewKeywords :=
  List.mem_append_right _ hname

/-- Keywords between blanks are fields. -/
theorem keywords_found {src : Bytes} (hplain : plainNames (places .code src) = true) {ks : List Bytes} (hne : ks ≠ [])
    (hks : ∀ k ∈ ks, k ∈ viewKeywords) : 0x20 :: spaced 0x20 ks <:+: viewHay src ↔ ks <:+: viewFields src := by
  rw [viewHay_eq hplain]
  exact infix_padded_iff rfl hne fun k hk => isField_keyword (hks k hk)

theorem hasJoin_iff {src : Bytes} (hplain : plainNames (places .code src) = true) :
    (searchView src).hasJoin = true ↔ utf8 "JOIN" ∈ viewFields src := by
  show decide (0x20 :: spaced 0x20 [utf8 "JOIN"] <:+: viewHay src) = true ↔ _
  rw [decide_eq_true_iff, keywords_found hplain (List.cons_ne_nil _ _) (by decide), List.singleton_infix_iff]

theorem hasGroupBy_iff {src : Bytes} (hplain : plainNames (places .code src) = true) :
    (searchView src).hasGroupBy = true ↔ [utf8 "GROUP", utf8 "BY"] <:+: viewFields src := by
  show decide (0x20 :: spaced 0x20 [utf8 "GROUP", utf8 "BY"] <:+: viewHay src) = true ↔ _
  rw [decide_eq_true_iff, keywords_found hplain (List.cons_ne_nil _ _) (by decide)]

theorem hasWhere_iff {src : Bytes} (hplain : plainNames (places .code src) = true) :
    (searchView src).hasWhere = true ↔ utf8 "WHERE" ∈ viewFields src := by
  show decide (0x20 :: spaced 0x20 [utf8 "WHERE"] <:+: viewHay src) = true ↔ _
  rw [decide_eq_true_iff, keywords_found hplain (List.cons_ne_nil _ _) (by decide), List.singleton_infix_iff]

theorem hasAggregate_iff_search {src : Bytes} : (searchView src).hasAggregate = true ↔
    ∃ name ∈ aggregateNames, name ++ utf8 "(" <:+: viewHay src ∨ name ++ utf8 " (" <:+: viewHay src := by
  show ((aggregateNames.any fun name => decide (name ++ utf8 "(" <:+: viewHay src)) ||
    aggregateNames.any fun name => decide (name ++ utf8 " (" <:+: viewHay src)) = true ↔ _
  simp only [Bool.or_eq_true, List.any_eq_true, decide_eq_true_eq]
  constructor
  · rintro (⟨name, hname, h⟩ | ⟨name, hname, h⟩)
    · exact ⟨name, hname, .inl h⟩
    · exact ⟨name, hname, .inr h⟩
  · rintro ⟨name, hname, h | h⟩
    · exact .inl ⟨name, hname, h⟩
    · exact .inr ⟨name, hname, h⟩

theorem hasAggregate_iff {src : Bytes} (hplain : plainNames (places .code src) = true) :
    (searchView src).hasAggregate = true ↔ CallShown src := by
  rw [hasAggregate_iff_search, viewHay_eq hplain]
  apply exists_congr
  intro name
  apply and_congr_right
  intro hname
  obtain ⟨hne, hkeyword⟩ := isField_keyword (aggregateNames_subset hname)
  obtain ⟨x, rest, rfl⟩ := List.exists_cons_of_ne_nil hne
  have hx : x ≠ 0x20 := by
    rintro rfl
    exact absurd (hkeyword _ List.mem_cons_self) (by decide)
  have hparenthesis : (0x28 : UInt8) ≠ 0x20 := by decide
  apply or_congr
  · exact infix_padded_iff_spaced hx hparenthesis rfl List.getLast?_concat
  · exact infix_padded_iff_spaced hx hparenthesis rfl (by rw [List.getLast?_append]; rfl)

/-- **A call of an aggregate is always found.** -/
theorem hasAggregate_of_call {src name : Bytes} (hplain : plainNames (places .code src) = true)
    (hname : name ∈ aggregateNames) (h : [.word name, .symbol 0x28] <:+: tokens (places .code src)) :
    (searchView src).hasAggregate = true := by
  obtain ⟨a, t, b, hshown, ht⟩ := shown_of_word_symbol h
  rw [List.nil_append] at hshown
  have hinner {n : Bytes} (hn : n <:+: collapse isWhitespace 0x20 false ((places .code src).map Cell.shown)) :
      n <:+: viewHay src := by
    rw [viewHay_eq hplain]
    exact hn.trans (List.infix_append [0x20] _ [0x20])
  have hfield := isField_keyword (aggregateNames_subset hname)
  rw [hasAggregate_iff_search]
  refine ⟨name, hname, ?_⟩
  rw [hshown] at hinner
  rcases infix_collapse (a := a) (b := b) hfield ht (x := upper 0x28) rfl false with h | h
  · exact .inl (hinner h)
  · exact .inr (hinner h)

/-! ## The answer -/

/-- The tokens of a text. -/
def viewTokens (src : Bytes) : List Token := tokens (places .code src)

/-- A view that pages must not be cut out of: a join, a grouping, or an aggregate. -/
def Heavy (ts : List Token) : Prop :=
  .word (utf8 "JOIN") ∈ ts ∨ [.word (utf8 "GROUP"), .word (utf8 "BY")] <:+: ts ∨
    ∃ name ∈ aggregateNames, [.word name, .symbol 0x28] <:+: ts

/-- The answer for a text is right: a simple view is not heavy, `has_where` says whether there is a `WHERE`, and
    literals and comments are of no consequence. -/
structure ViewShape (src : Bytes) : Prop where
  simple : isViewSimpleForPagination (analyzeViewSource (.text src)) = true → ¬Heavy (viewTokens src)
  hasWhere : (analyzeViewSource (.text src)).hasWhere = true ↔ .word (utf8 "WHERE") ∈ viewTokens src
  noise : ∀ src', skeleton (places .code src') = skeleton (places .code src) →
    analyzeViewSource (.text src') = analyzeViewSource (.text src)

/-- The keywords are set off by blanks: one of a heavy view's, and one `WHERE`. A `WHERE` that is set off, and is not
    the keyword, occurs beside the keyword only. -/
structure SetOff (src : Bytes) : Prop where
  heavy : .word (utf8 "JOIN") ∈ viewTokens src ∨ [.word (utf8 "GROUP"), .word (utf8 "BY")] <:+: viewTokens src →
    utf8 "JOIN" ∈ viewFields src ∨ [utf8 "GROUP", utf8 "BY"] <:+: viewFields src ∨ CallShown src
  seen : .word (utf8 "WHERE") ∈ viewTokens src → utf8 "WHERE" ∈ viewFields src
  quoted : (∃ g ∈ fields (fun c => isWhitespace c.shown) (places .code src),
      g.map Cell.shown = utf8 "WHERE" ∧ ∃ c ∈ g, c.place = .quoted) → .word (utf8 "WHERE") ∈ viewTokens src

theorem isViewSimpleForPagination_iff {src : Bytes} (hplain : plainNames (places .code src) = true) :
    isViewSimpleForPagination (analyzeViewSource (.text src)) = true ↔
      src ≠ [] ∧ utf8 "JOIN" ∉ viewFields src ∧ ¬[utf8 "GROUP", utf8 "BY"] <:+: viewFields src ∧ ¬CallShown src := by
  by_cases hsrc : src = []
  · subst hsrc
    exact iff_of_false nofun fun h => h.1 rfl
  · have hsearch : analyzeViewSource (.text src) = searchView src := if_neg hsrc
    rw [hsearch, ← hasJoin_iff hplain, ← hasGroupBy_iff hplain, ← hasAggregate_iff hplain]
    show (true && !(searchView src).hasJoin && !(searchView src).hasGroupBy &&
      !(searchView src).hasAggregate) = true ↔ _
    simp [hsrc, and_assoc]

theorem analyzeViewSource_hasWhere {src : Bytes} (hplain : plainNames (places .code src) = true) :
    (analyzeViewSource (.text src)).hasWhere = true ↔ utf8 "WHERE" ∈ viewFields src := by
  by_cases hsrc : src = []
  · subst hsrc
    exact iff_of_false nofun nofun
  · have hsearch : analyzeViewSource (.text src) = searchView src := if_neg hsrc
    rw [hsearch, hasWhere_iff hplain]

/-- **Literals and comments are never searched.** -/
theorem analyzeViewSource_skeleton {src src' : Bytes} (hplain : plainNames (places .code src) = true)
    (h : skeleton (places .code src') = skeleton (places .code src)) :
    analyzeViewSource (.text src') = analyzeViewSource (.text src) := by
  have hplain' : plainNames (places .code src') = true := by
    rw [← plainNames_skeleton, h, plainNames_skeleton, hplain]
  have hhay : viewHay src' = viewHay src := by
    rw [viewHay_eq hplain, viewHay_eq hplain']
    unfold padded
    rw [← collapse_skeleton false (places .code src'), h, collapse_skeleton]
  have hempty : src' = [] ↔ src = [] := by
    have hskeleton (s : Bytes) : skeleton (places .code s) = [] ↔ s = [] := by
      cases s with
      | nil => exact iff_of_true rfl rfl
      | cons c s => exact iff_of_false (skeleton_ne_nil (List.cons_ne_nil _ _)) (List.cons_ne_nil c s)
    rw [← hskeleton, h, hskeleton]
  have hsearch : searchView src' = searchView src := by
    unfold searchView
    rw [hhay]
  show (if src' = [] then {} else searchView src') = if src = [] then {} else searchView src
  rw [hsearch]
  exact if_congr hempty rfl rfl

/-- A `WHERE` between blanks is a keyword, or part of a name. -/
theorem where_of_field {src : Bytes} (h : utf8 "WHERE" ∈ viewFields src) :
    .word (utf8 "WHERE") ∈ viewTokens src ∨ ∃ g ∈ fields (fun c => isWhitespace c.shown) (places .code src),
      g.map Cell.shown = utf8 "WHERE" ∧ ∃ c ∈ g, c.place = .quoted := by
  unfold viewFields at h
  rw [fields_map] at h
  obtain ⟨g, hg, hshown⟩ := List.mem_map.mp h
  by_cases hname : ∃ c ∈ g, c.place = .quoted
  · exact .inr ⟨g, hg, hshown, hname⟩
  · apply Or.inl
    rw [← hshown]
    apply word_mem_tokens_of_field hg
    · intro c hc
      have hkeyword : utf8 "WHERE" ∈ viewKeywords := by decide
      apply ((viewKeywords_words _ hkeyword).2 c.shown _).1
      rw [← hshown]
      exact List.mem_map_of_mem hc
    · intro c hc hplace
      exact hname ⟨c, hc, hplace⟩

theorem viewShape_iff {src : Bytes} (hplain : plainNames (places .code src) = true) : ViewShape src ↔ SetOff src := by
  constructor
  · intro h
    refine ⟨?_, ?_, ?_⟩
    · intro htokens
      -- a view whose keywords are not seen would be taken for simple
      by_contra hno
      obtain ⟨hjoin, hno⟩ := not_or.mp hno
      obtain ⟨hgroup, hcall⟩ := not_or.mp hno
      have hne : src ≠ [] := by
        rintro rfl
        rcases htokens with hmem | hinfix
        · cases hmem
        · cases List.infix_nil.mp hinfix
      apply h.simple ((isViewSimpleForPagination_iff hplain).mpr ⟨hne, hjoin, hgroup, hcall⟩)
      exact htokens.imp_right .inl
    · intro htoken
      exact (analyzeViewSource_hasWhere hplain).mp (h.hasWhere.mpr htoken)
    · rintro ⟨g, hg, hshown, -⟩
      apply h.hasWhere.mp
      apply (analyzeViewSource_hasWhere hplain).mpr
      unfold viewFields
      rw [fields_map, ← hshown]
      exact List.mem_map_of_mem hg
  · intro h
    refine ⟨?_, ?_, fun src' => analyzeViewSource_skeleton hplain⟩
    · intro hsimple
      obtain ⟨hne, hjoin, hgroup, hcall⟩ := (isViewSimpleForPagination_iff hplain).mp hsimple
      have hkeywords := mt h.heavy (by simp [hjoin, hgroup, hcall])
      rintro (htoken | hinfix | ⟨name, hname, hinfix⟩)
      · exact hkeywords (.inl htoken)
      · exact hkeywords (.inr hinfix)
      · exact hcall ((hasAggregate_iff hplain).mp (hasAggregate_of_call hplain hname hinfix))
    · rw [analyzeViewSource_hasWhere hplain]
      constructor
      · intro hfield
        rcases where_of_field hfield with htoken | hname
        · exact htoken
        · exact h.quoted hname
      · exact h.seen

/-! ## Other names -/

/-- A byte, or another one for a double quote. -/
def unquoteByte (c : UInt8) : UInt8 := if c = 0x22 then 0x23 else c

/-- The text without its double quotes, so that nothing in it is a name. -/
def namesAsCode (src : Bytes) : Bytes := src.map unquoteByte

theorem unquoteByte_eq_iff {c b : UInt8} (hname : b ≠ 0x22) (hmark : b ≠ 0x23) : unquoteByte c = b ↔ c = b := by
  unfold unquoteByte
  split_ifs with h
  · subst h
    exact iff_of_false hmark.symm hname.symm
  · exact Iff.rfl

theorem toUpperByte_unquoteByte (c : UInt8) : toUpperByte (unquoteByte c) = unquoteByte (toUpperByte c) := by
  revert c
  have hall : ∀ n < 256, toUpperByte (unquoteByte (UInt8.ofNat n)) = unquoteByte (toUpperByte (UInt8.ofNat n)) := by
    decide +kernel
  intro c
  have h := hall c.toNat c.toNat_lt
  rwa [UInt8.ofNat_toNat] at h

/-- The scan does not tell a double quote from any other byte of code. -/
theorem normalizeSource_namesAsCode (state : SourceState) (src : Bytes) :
    normalizeSource state (namesAsCode src) = namesAsCode (normalizeSource state src) := by
  have hquote {c : UInt8} : unquoteByte c = 0x27 ↔ c = 0x27 := unquoteByte_eq_iff (by decide) (by decide)
  have hdash {c : UInt8} : unquoteByte c = 0x2D ↔ c = 0x2D := unquoteByte_eq_iff (by decide) (by decide)
  have hslash {c : UInt8} : unquoteByte c = 0x2F ↔ c = 0x2F := unquoteByte_eq_iff (by decide) (by decide)
  have hstar {c : UInt8} : unquoteByte c = 0x2A ↔ c = 0x2A := unquoteByte_eq_iff (by decide) (by decide)
  have hnewline {c : UInt8} : unquoteByte c = 0x0A ↔ c = 0x0A := unquoteByte_eq_iff (by decide) (by decide)
  unfold namesAsCode
  fun_induction normalizeSource state src with
  | case1 state => exact normalizeSource_nil state
  | case2 rest ih => exact (normalizeSource_opening _).trans (congrArg (0x20 :: ·) ih)
  | case3 c hc =>
      show normalizeSource .code [unquoteByte c] = [unquoteByte (toUpperByte c)]
      rw [normalizeSource_last (mt hquote.mp hc), toUpperByte_unquoteByte]
  | case4 c hc n rest hline ih =>
      show normalizeSource .code (unquoteByte c :: unquoteByte n :: rest.map unquoteByte) = _
      rw [normalizeSource_code (mt hquote.mp hc), if_pos ⟨hdash.mpr hline.1, hdash.mpr hline.2⟩, ih]
      rfl
  | case5 c hc n rest hline hblock ih =>
      show normalizeSource .code (unquoteByte c :: unquoteByte n :: rest.map unquoteByte) = _
      rw [normalizeSource_code (mt hquote.mp hc), if_neg (mt (And.imp hdash.mp hdash.mp) hline),
        if_pos ⟨hslash.mpr hblock.1, hstar.mpr hblock.2⟩, ih]
      rfl
  | case6 c hc n rest hline hblock ih =>
      show normalizeSource .code (unquoteByte c :: unquoteByte n :: rest.map unquoteByte) = _
      rw [normalizeSource_code (mt hquote.mp hc), if_neg (mt (And.imp hdash.mp hdash.mp) hline),
        if_neg (mt (And.imp hslash.mp hstar.mp) hblock), toUpperByte_unquoteByte]
      exact congrArg (unquoteByte (toUpperByte c) :: ·) ih
  | case7 => rfl
  | case8 rest ih => exact congrArg (0x20 :: 0x20 :: ·) ih
  | case9 n rest hn ih =>
      show normalizeSource .str (0x27 :: unquoteByte n :: rest.map unquoteByte) = _
      rw [normalizeSource_closing, if_neg (mt hquote.mp hn)]
      exact congrArg (0x20 :: ·) ih
  | case10 c rest hc ih =>
      exact (normalizeSource_str (mt hquote.mp hc) _).trans (congrArg (0x20 :: ·) ih)
  | case11 rest ih => exact congrArg (0x0A :: ·) ih
  | case12 c rest hc ih =>
      show normalizeSource .lineComment (unquoteByte c :: rest.map unquoteByte) = _
      rw [normalizeSource_lineComment, if_neg (mt hnewline.mp hc), ih]
      rfl
  | case13 c => rfl
  | case14 c n rest hclose ih =>
      show normalizeSource .blockComment (unquoteByte c :: unquoteByte n :: rest.map unquoteByte) = _
      rw [normalizeSource_blockComment, if_pos ⟨hstar.mpr hclose.1, hslash.mpr hclose.2⟩, ih]
      rfl
  | case15 c n rest hclose ih =>
      show normalizeSource .blockComment (unquoteByte c :: unquoteByte n :: rest.map unquoteByte) = _
      rw [normalizeSource_blockComment, if_neg (mt (And.imp hstar.mp hslash.mp) hclose)]
      exact congrArg (0x20 :: ·) ih

theorem isWhitespace_unquoteByte (c : UInt8) : isWhitespace (unquoteByte c) = isWhitespace c := by
  unfold unquoteByte
  split_ifs with h
  · subst h
    rfl
  · rfl

theorem viewHay_namesAsCode (src : Bytes) : viewHay (namesAsCode src) = namesAsCode (viewHay src) := by
  unfold viewHay
  rw [normalizeSource_namesAsCode]
  unfold padded namesAsCode
  rw [collapse_map isWhitespace_unquoteByte rfl, List.map_cons, List.map_append]
  rfl

/-- **To the search a double quote is a byte like any other.** -/
theorem analyzeViewSource_namesAsCode (src : Bytes) :
    analyzeViewSource (.text (namesAsCode src)) = analyzeViewSource (.text src) := by
  have hfound {needle : Bytes} (h : needle.all (fun b => b != 0x22 && b != 0x23) = true) :
      needle <:+: viewHay (namesAsCode src) ↔ needle <:+: viewHay src := by
    rw [viewHay_namesAsCode]
    refine infix_map_iff (fun b hb c => ?_) _
    obtain ⟨hname, hmark⟩ := Bool.and_eq_true_iff.mp (List.all_eq_true.mp h b hb)
    exact unquoteByte_eq_iff (bne_iff_ne.mp hname) (bne_iff_ne.mp hmark)
  have hsearch : searchView (namesAsCode src) = searchView src := by
    unfold searchView
    have hcall {mark : Bytes} (hmark : ∀ name ∈ aggregateNames,
        (name ++ mark).all (fun b => b != 0x22 && b != 0x23) = true) :
        (aggregateNames.any fun name => decide (name ++ mark <:+: viewHay (namesAsCode src))) =
          aggregateNames.any fun name => decide (name ++ mark <:+: viewHay src) := by
      rw [Bool.eq_iff_iff, List.any_eq_true, List.any_eq_true]
      refine exists_congr fun name => and_congr_right fun hname => ?_
      rw [decide_eq_true_iff, decide_eq_true_iff, hfound (hmark name hname)]
    rw [hcall (by decide +kernel), hcall (by decide +kernel),
      decide_eq_decide.mpr (@hfound (utf8 " JOIN ") (by decide +kernel)),
      decide_eq_decide.mpr (@hfound (utf8 " GROUP BY ") (by decide +kernel)),
      decide_eq_decide.mpr (@hfound (utf8 " WHERE ") (by decide +kernel))]
  have hempty : namesAsCode src = [] ↔ src = [] := List.map_eq_nil_iff
  show (if namesAsCode src = [] then {} else searchView (namesAsCode src)) = if src = [] then {} else searchView src
  rw [hsearch]
  exact if_congr hempty rfl rfl

theorem plainNames_namesAsCode (src : Bytes) : plainNames (places .code (namesAsCode src)) = true := by
  refine plainNames_of_no_quote (fun c hc => ?_) nofun
  obtain ⟨b, -, rfl⟩ := List.mem_map.mp hc
  unfold unquoteByte
  split_ifs with h
  · decide
  · exact h

/-- A keyword of a heavy view shows between blanks. -/
def KeywordShown (src : Bytes) : Prop :=
  utf8 "JOIN" ∈ viewFields src ∨ [utf8 "GROUP", utf8 "BY"] <:+: viewFields src ∨ CallShown src

/-- **The flags of any text**: a double quote is a byte like any other. -/
theorem flags_iff (src : Bytes) :
    ((isViewSimpleForPagination (analyzeViewSource (.text src)) = true → ¬Heavy (viewTokens src)) ∧
      ((analyzeViewSource (.text src)).hasWhere = true ↔ .word (utf8 "WHERE") ∈ viewTokens src)) ↔
    (Heavy (viewTokens src) → KeywordShown (namesAsCode src)) ∧
      (utf8 "WHERE" ∈ viewFields (namesAsCode src) ↔ .word (utf8 "WHERE") ∈ viewTokens src) := by
  have hplain := plainNames_namesAsCode src
  rw [← analyzeViewSource_namesAsCode, analyzeViewSource_hasWhere hplain, isViewSimpleForPagination_iff hplain]
  apply and_congr_left
  intro _
  constructor
  · intro h hheavy
    by_contra hno
    obtain ⟨hjoin, hno⟩ := not_or.mp hno
    obtain ⟨hgroup, hcall⟩ := not_or.mp hno
    refine h ⟨?_, hjoin, hgroup, hcall⟩ hheavy
    intro hempty
    obtain rfl : src = [] := List.map_eq_nil_iff.mp hempty
    rcases hheavy with hmem | hinfix | ⟨name, -, hinfix⟩
    · cases hmem
    · cases List.infix_nil.mp hinfix
    · cases List.infix_nil.mp hinfix
  · rintro h ⟨-, hjoin, hgroup, hcall⟩ hheavy
    exact (h hheavy).elim hjoin (·.elim hgroup hcall)

/-- **The answer is right exactly if the keywords are set off.** Calls of aggregates need no condition. Where a name is
    not plain, the scan takes code for literals and literals for code from there on; the flags are right exactly if
    what it then sees shows the keywords that the text has. -/
theorem analyzeViewSource_iff (src : Bytes) :
    (plainNames (places .code src) = true → (ViewShape src ↔ SetOff src)) ∧
    (((isViewSimpleForPagination (analyzeViewSource (.text src)) = true → ¬Heavy (viewTokens src)) ∧
        ((analyzeViewSource (.text src)).hasWhere = true ↔ .word (utf8 "WHERE") ∈ viewTokens src)) ↔
      (Heavy (viewTokens src) → KeywordShown (namesAsCode src)) ∧
        (utf8 "WHERE" ∈ viewFields (namesAsCode src) ↔ .word (utf8 "WHERE") ∈ viewTokens src)) :=
  ⟨viewShape_iff, flags_iff src⟩

theorem analyzeViewSource_joined : ViewShape (utf8 "SELECT A.X FROM A JOIN B ON B.X = A.X WHERE A.Y = 'it''s'") := by
  apply ((analyzeViewSource_iff _).1 (by decide +kernel)).mpr
  refine ⟨?_, ?_, ?_⟩
  · intro _
    exact .inl (by decide +kernel)
  · intro _
    decide +kernel
  · intro _
    decide +kernel

/-- The parenthesis is not a blank, so the join is not seen. -/
theorem analyzeViewSource_joinParenthesis : ¬∀ src, ViewShape src := by
  intro h
  apply (h (utf8 "SELECT A.X FROM A JOIN(SELECT X FROM B)C ON C.X = A.X")).simple
  · decide +kernel
  · apply Or.inl
    decide +kernel

end FirebirdScan
