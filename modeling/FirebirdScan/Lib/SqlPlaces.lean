import FirebirdScan.Lib.Fields
import FirebirdScan.Lib.SqlText
import FirebirdScan.Lib.Utf8

/-!
# `Lib.SqlPlaces` — what a byte of an SQL text belongs to

A text is code, names in double quotes, literals in single quotes, and comments. `places` marks every byte with its
place, and `tokens` are the tokens of a marked text: its words, in upper case, and what stands between them.
`skeleton` is what is left of a text when nothing is said of its literals and comments but where they are.
-/

namespace SqlPlaces

open SqlText Fields

inductive Place where
  | code | quoted | literal | comment
deriving DecidableEq

/-- A byte and its place. -/
structure Cell where
  byte : UInt8
  place : Place
deriving DecidableEq

/-- Where a reader stands. -/
inductive Reading where
  | code | quoted | literal | lineComment | blockOpen | blockComment | blockClose
deriving DecidableEq

/-- A byte is read, with the next one in sight. A doubled quote ends a name or a literal and begins another one at
    once, so that both of its bytes, and what follows, are inside. -/
def readByte : Reading → UInt8 → Option UInt8 → Place × Reading
  | .code, c, next =>
      if c = 0x27 then (.literal, .literal)
      else if c = 0x22 then (.quoted, .quoted)
      else if c = 0x2D ∧ next = some 0x2D then (.comment, .lineComment)
      else if c = 0x2F ∧ next = some 0x2A then (.comment, .blockOpen)
      else (.code, .code)
  | .quoted, c, _ => (.quoted, if c = 0x22 then .code else .quoted)
  | .literal, c, _ => (.literal, if c = 0x27 then .code else .literal)
  | .lineComment, c, _ => if c = 0x0A then (.code, .code) else (.comment, .lineComment)
  | .blockOpen, _, _ => (.comment, .blockComment)
  | .blockComment, c, next => (.comment, if c = 0x2A ∧ next = some 0x2F then .blockClose else .blockComment)
  | .blockClose, _, _ => (.comment, .code)

/-- The bytes of a text with their places. -/
def places : Reading → List UInt8 → List Cell
  | _, [] => []
  | r, c :: s => ⟨c, (readByte r c s.head?).1⟩ :: places (readByte r c s.head?).2 s

/-! ## Tokens -/

/-- A letter in upper case. -/
def upper (c : UInt8) : UInt8 := if 0x61 ≤ c ∧ c ≤ 0x7A then c - 0x20 else c

/-- Space, tab, newline, vertical tab, form feed, carriage return. -/
def isWhitespace (c : UInt8) : Bool := c = 0x20 || (0x09 ≤ c && c ≤ 0x0D)

inductive Token where
  | word (w : List UInt8)
  | symbol (c : UInt8)
  | name
  | literal
deriving DecidableEq

/-- A word is complete, if it has begun. -/
def flush (w : List UInt8) : List Token := if w.isEmpty then [] else [.word w]

/-- The token that ends with this cell, if the next one does not go on with it. -/
def ends (token : Token) (c : Cell) (next : Option Cell) : List Token :=
  if next.any fun d => d.place = c.place then [] else [token]

/-- The tokens of a marked text, behind the letters of a word. -/
def tokensFrom : List UInt8 → List Cell → List Token
  | w, [] => flush w
  | w, c :: cells =>
      match c.place with
      | .code =>
          if isWordByte c.byte then tokensFrom (w ++ [upper c.byte]) cells
          else if isWhitespace c.byte then flush w ++ tokensFrom [] cells
          else flush w ++ .symbol c.byte :: tokensFrom [] cells
      | .quoted => flush w ++ (ends .name c cells.head? ++ tokensFrom [] cells)
      | .literal => flush w ++ (ends .literal c cells.head? ++ tokensFrom [] cells)
      | .comment => flush w ++ tokensFrom [] cells

def tokens (cells : List Cell) : List Token := tokensFrom [] cells

/-- Is it a byte of a word? -/
def Cell.inWord (c : Cell) : Bool := c.place = .code && isWordByte c.byte

/-- What a cell shows when literals and comments are blank: itself, in upper case. -/
def Cell.shown (c : Cell) : UInt8 :=
  match c.place with
  | .code | .quoted => upper c.byte
  | .literal | .comment => 0x20

theorem flush_of_ne_nil {w : List UInt8} (h : w ≠ []) : flush w = [.word w] := by
  unfold flush
  rw [List.isEmpty_eq_false_iff.mpr h]
  rfl

/-- A byte of a word goes on with it. -/
theorem tokensFrom_inWord {c : Cell} (h : c.inWord = true) (w : List UInt8) (cells : List Cell) :
    tokensFrom w (c :: cells) = tokensFrom (w ++ [upper c.byte]) cells := by
  obtain ⟨hplace, hword⟩ := Bool.and_eq_true_iff.mp h
  rw [tokensFrom, of_decide_eq_true hplace]
  simp only
  rw [if_pos hword]

theorem ends_eq (token : Token) (c : Cell) (next : Option Cell) :
    (ends token c next = [token] ∧ ∀ d ∈ next, d.place ≠ c.place) ∨
      (ends token c next = [] ∧ ∃ d, next = some d ∧ d.place = c.place) := by
  cases next with
  | none => exact .inl ⟨rfl, nofun⟩
  | some d =>
      by_cases h : d.place = c.place
      · exact .inr ⟨by simp [ends, h], d, rfl, h⟩
      · refine .inl ⟨by simp [ends, h], ?_⟩
        intro e he
        rw [← Option.some.inj he]
        exact h

/-- Any other one ends it. What it stands for itself is no word. -/
theorem tokensFrom_of_not_inWord {c : Cell} (h : c.inWord = false) (cells : List Cell) :
    ∃ ts, (ts = [] ∨ ∃ token, ts = [token] ∧ ∀ w, token ≠ .word w) ∧
      ∀ w, tokensFrom w (c :: cells) = flush w ++ (ts ++ tokensFrom [] cells) := by
  have hends {token : Token} (htoken : ∀ w, token ≠ .word w) (next : Option Cell) :
      ends token c next = [] ∨ ∃ token', ends token c next = [token'] ∧ ∀ w, token' ≠ .word w := by
    rcases ends_eq token c next with ⟨h, -⟩ | ⟨h, -⟩
    · exact .inr ⟨token, h, htoken⟩
    · exact .inl h
  -- a symbol, the end of a name or of a literal, or no token at all
  cases hplace : c.place with
  | code =>
      have hword : isWordByte c.byte = false := by
        unfold Cell.inWord at h
        rw [hplace] at h
        exact h
      by_cases hspace : isWhitespace c.byte = true
      · refine ⟨[], .inl rfl, ?_⟩
        intro w
        rw [tokensFrom, hplace]
        simp only
        rw [hword, if_neg Bool.false_ne_true, if_pos hspace]
        rfl
      · refine ⟨[.symbol c.byte], .inr ⟨_, rfl, nofun⟩, ?_⟩
        intro w
        rw [tokensFrom, hplace]
        simp only
        rw [hword, if_neg Bool.false_ne_true, if_neg hspace]
        rfl
  | quoted =>
      have hname : ∀ w, Token.name ≠ .word w := nofun
      exact ⟨ends .name c cells.head?, hends hname _, fun w => by rw [tokensFrom, hplace]⟩
  | literal =>
      have hliteral : ∀ w, Token.literal ≠ .word w := nofun
      exact ⟨ends .literal c cells.head?, hends hliteral _, fun w => by rw [tokensFrom, hplace]⟩
  | comment => exact ⟨[], .inl rfl, fun w => by rw [tokensFrom, hplace]; rfl⟩

/-! ## A word between gaps is a token -/

theorem tokensFrom_word {g : List Cell} (hg : ∀ c ∈ g, c.inWord = true) (w : List UInt8) (cells : List Cell) :
    tokensFrom w (g ++ cells) = tokensFrom (w ++ g.map fun c => upper c.byte) cells := by
  induction g generalizing w with
  | nil => rw [List.map_nil, List.append_nil, List.nil_append]
  | cons c g ih =>
      obtain ⟨hc, hg⟩ := List.forall_mem_cons.mp hg
      rw [List.cons_append, tokensFrom_inWord hc, ih hg, List.map_cons, List.append_assoc]
      rfl

/-- Behind what is not in a word the tokens begin anew. -/
theorem tokensFrom_append {c : Cell} (hc : c.inWord = false) (a cells : List Cell) (w : List UInt8) :
    ∃ ts, tokensFrom w (a ++ c :: cells) = ts ++ tokensFrom [] cells := by
  induction a generalizing w with
  | nil =>
      obtain ⟨ts, -, hts⟩ := tokensFrom_of_not_inWord hc cells
      refine ⟨flush w ++ ts, ?_⟩
      rw [List.nil_append, hts, List.append_assoc]
  | cons d a ih =>
      rw [List.cons_append]
      cases hd : d.inWord with
      | true =>
          rw [tokensFrom_inWord hd]
          exact ih _
      | false =>
          obtain ⟨us, -, hus⟩ := tokensFrom_of_not_inWord hd (a ++ c :: cells)
          obtain ⟨ts, hts⟩ := ih []
          refine ⟨flush w ++ (us ++ ts), ?_⟩
          rw [hus, hts]
          simp

/-- A word with nothing of a word before or behind it. -/
theorem word_mem_tokens {a g b : List Cell} (hne : g ≠ []) (hg : ∀ c ∈ g, c.inWord = true)
    (ha : a = [] ∨ ∃ a' c, a = a' ++ [c] ∧ c.inWord = false) (hb : ∀ c ∈ b.head?, c.inWord = false) :
    .word (g.map fun c => upper c.byte) ∈ tokens (a ++ g ++ b) := by
  have hword : .word (g.map fun c => upper c.byte) ∈ tokensFrom [] (g ++ b) := by
    have hmap : (g.map fun c => upper c.byte) ≠ [] := fun h => hne (List.map_eq_nil_iff.mp h)
    rw [tokensFrom_word hg, List.nil_append]
    cases b with
    | nil =>
        rw [tokensFrom, flush_of_ne_nil hmap]
        exact List.mem_singleton_self _
    | cons c b =>
        obtain ⟨ts, -, hts⟩ := tokensFrom_of_not_inWord (hb c rfl) b
        rw [hts, flush_of_ne_nil hmap]
        exact List.mem_cons_self
  rcases ha with rfl | ⟨a', c, rfl, hc⟩
  · exact hword
  · obtain ⟨ts, hts⟩ := tokensFrom_append hc a' (g ++ b) []
    have hcells : a' ++ [c] ++ g ++ b = a' ++ c :: (g ++ b) := by simp
    unfold tokens
    rw [hcells, hts]
    exact List.mem_append_right _ hword

theorem isWhitespace_upper_of_isWordByte : ∀ c, isWordByte c = true → isWhitespace (upper c) = false :=
  Utf8.every_byte (by decide +kernel)

theorem isWordByte_of_upper : ∀ c, isWordByte (upper c) = true → isWordByte c = true :=
  Utf8.every_byte (by decide +kernel)

/-- What shows a blank is in no word. -/
theorem inWord_of_blank {c : Cell} (h : isWhitespace c.shown = true) : c.inWord = false := by
  rw [← Bool.not_eq_true]
  intro hword
  obtain ⟨hplace, hbyte⟩ := Bool.and_eq_true_iff.mp hword
  have hno := isWhitespace_upper_of_isWordByte c.byte hbyte
  unfold Cell.shown at h
  rw [of_decide_eq_true hplace, hno] at h
  cases h

/-- **A word between blanks**, no part of which is in a name. -/
theorem word_mem_tokens_of_field {g cells : List Cell} (hg : g ∈ fields (fun c => isWhitespace c.shown) cells)
    (hword : ∀ c ∈ g, isWordByte c.shown = true) (hname : ∀ c ∈ g, c.place ≠ .quoted) :
    .word (g.map Cell.shown) ∈ tokens cells := by
  have hcode : ∀ c ∈ g, c.inWord = true ∧ c.shown = upper c.byte := by
    intro c hc
    have hbyte := hword c hc
    unfold Cell.inWord
    unfold Cell.shown at hbyte ⊢
    cases hplace : c.place with
    | code =>
        rw [hplace] at hbyte
        exact ⟨isWordByte_of_upper c.byte hbyte, rfl⟩
    | quoted => exact absurd hplace (hname c hc)
    | literal =>
        rw [hplace] at hbyte
        cases hbyte
    | comment =>
        rw [hplace] at hbyte
        cases hbyte
  obtain ⟨a, b, rfl, ha, hb⟩ := mem_fields hg
  have hmap : g.map Cell.shown = g.map fun c => upper c.byte := List.map_congr_left fun c hc => (hcode c hc).2
  rw [hmap]
  apply word_mem_tokens (isField_of_mem hg).1 (fun c hc => (hcode c hc).1)
  · rcases ha with ha | ⟨a', c, ha, hc⟩
    · exact .inl ha
    · exact .inr ⟨a', c, ha, inWord_of_blank hc⟩
  · intro c hc
    exact inWord_of_blank (hb c hc)

/-! ## A word and the symbol behind it -/

theorem isWhitespace_upper {c : UInt8} (h : isWhitespace c = true) : isWhitespace (upper c) = true := by
  have hlow : ¬(0x61 ≤ c ∧ c ≤ 0x7A) := by
    unfold isWhitespace at h
    simp only [Bool.or_eq_true, Bool.and_eq_true, decide_eq_true_eq] at h
    rcases h with rfl | ⟨-, h⟩
    · decide
    · rintro ⟨hle, -⟩
      exact absurd (UInt8.le_trans hle h) (by decide)
  unfold upper
  rw [if_neg hlow]
  exact h

/-- A word that has begun is the next token. -/
theorem head_tokensFrom {w : List UInt8} (hw : w ≠ []) (cells : List Cell) :
    ∃ w', (tokensFrom w cells).head? = some (.word w') := by
  induction cells generalizing w with
  | nil =>
      refine ⟨w, ?_⟩
      rw [tokensFrom, flush_of_ne_nil hw]
      rfl
  | cons c cells ih =>
      cases hc : c.inWord with
      | true =>
          rw [tokensFrom_inWord hc]
          exact ih (by simp)
      | false =>
          obtain ⟨ts, -, hts⟩ := tokensFrom_of_not_inWord hc cells
          refine ⟨w, ?_⟩
          rw [hts, flush_of_ne_nil hw]
          rfl

/-- So is a name or a literal. -/
theorem head_quoted {c : Cell} (cells : List Cell) (h : c.place = .quoted ∨ c.place = .literal) :
    (tokens (c :: cells)).head? = some .name ∨ (tokens (c :: cells)).head? = some .literal := by
  induction cells generalizing c with
  | nil =>
      unfold tokens
      rcases h with h | h
      · rw [tokensFrom, h]
        exact .inl rfl
      · rw [tokensFrom, h]
        exact .inr rfl
  | cons d cells ih =>
      have hnext {token : Token} (htoken : token = .name ∨ token = .literal)
          (heq : tokens (c :: d :: cells) = ends token c (some d) ++ tokens (d :: cells)) :
          (tokens (c :: d :: cells)).head? = some .name ∨ (tokens (c :: d :: cells)).head? = some .literal := by
        rw [heq]
        rcases ends_eq token c (some d) with ⟨hends, -⟩ | ⟨hends, e, he, hplace⟩
        · rw [hends]
          rcases htoken with rfl | rfl
          · exact .inl rfl
          · exact .inr rfl
        · rw [hends]
          obtain rfl := Option.some.inj he
          exact ih (hplace ▸ h)
      rcases h with h | h
      · exact hnext (.inl rfl) (by unfold tokens; rw [tokensFrom, h]; rfl)
      · exact hnext (.inr rfl) (by unfold tokens; rw [tokensFrom, h]; rfl)

/-- The next token is a symbol: there is nothing but blanks before it. -/
theorem symbol_of_head {x : UInt8} {cells : List Cell} (h : (tokens cells).head? = some (.symbol x)) :
    ∃ t b, cells.map Cell.shown = t ++ upper x :: b ∧ ∀ y ∈ t, isWhitespace y = true := by
  have hblank {c : Cell} {cells : List Cell} (hc : isWhitespace c.shown = true)
      (h : ∃ t b, cells.map Cell.shown = t ++ upper x :: b ∧ ∀ y ∈ t, isWhitespace y = true) :
      ∃ t b, (c :: cells).map Cell.shown = t ++ upper x :: b ∧ ∀ y ∈ t, isWhitespace y = true := by
    obtain ⟨t, b, hcells, ht⟩ := h
    refine ⟨c.shown :: t, b, ?_, List.forall_mem_cons.mpr ⟨hc, ht⟩⟩
    rw [List.map_cons, hcells]
    rfl
  induction cells with
  | nil => cases h
  | cons c cells ih =>
      cases hplace : c.place with
      | quoted => rcases head_quoted cells (.inl hplace) with h' | h' <;> rw [h'] at h <;> cases h
      | literal => rcases head_quoted cells (.inr hplace) with h' | h' <;> rw [h'] at h <;> cases h
      | comment =>
          have hc : isWhitespace c.shown = true := by
            unfold Cell.shown
            rw [hplace]
            rfl
          unfold tokens at h
          rw [tokensFrom, hplace] at h
          exact hblank hc (ih h)
      | code =>
          have hshown : c.shown = upper c.byte := by
            unfold Cell.shown
            rw [hplace]
          unfold tokens at h
          rw [tokensFrom, hplace] at h
          simp only at h
          split_ifs at h with hword hspace
          · obtain ⟨w, hw⟩ := head_tokensFrom (w := [] ++ [upper c.byte]) (by simp) cells
            rw [hw] at h
            cases h
          · exact hblank (hshown ▸ isWhitespace_upper hspace) (ih h)
          · obtain rfl : c.byte = x := Token.symbol.inj (Option.some.inj h)
            exact ⟨[], cells.map Cell.shown, by rw [List.map_cons, hshown]; rfl, List.forall_mem_nil _⟩

/-- **A word and the symbol behind it**: what the text shows is the word, blanks, and the symbol. -/
theorem shown_of_word_symbol {k : List UInt8} {x : UInt8} {w : List UInt8} {cells : List Cell}
    (h : [.word k, .symbol x] <:+: tokensFrom w cells) :
    ∃ a t b, w ++ cells.map Cell.shown = a ++ k ++ t ++ upper x :: b ∧ ∀ y ∈ t, isWhitespace y = true := by
  induction cells generalizing w with
  | nil =>
      have hlen := h.length_le
      unfold tokensFrom flush at hlen
      split at hlen <;> simp at hlen
  | cons c cells ih =>
      cases hc : c.inWord with
      | true =>
          rw [tokensFrom_inWord hc] at h
          obtain ⟨a, t, b, htext, ht⟩ := ih h
          refine ⟨a, t, b, ?_, ht⟩
          have hshown : c.shown = upper c.byte := by
            unfold Cell.shown
            rw [of_decide_eq_true (Bool.and_eq_true_iff.mp hc).1]
          rw [← htext, List.map_cons, hshown]
          simp
      | false =>
          obtain ⟨ts, hts, htokens⟩ := tokensFrom_of_not_inWord hc cells
          have hrest : tokens (c :: cells) = ts ++ tokensFrom [] cells := htokens []
          have hbehind (h : [.word k, .symbol x] <:+: ts ++ tokensFrom [] cells) :
              ∃ a t b, w ++ (c :: cells).map Cell.shown = a ++ k ++ t ++ upper x :: b ∧
                ∀ y ∈ t, isWhitespace y = true := by
            have hcells : [.word k, .symbol x] <:+: tokensFrom [] cells := by
              rcases hts with rfl | ⟨token, rfl, htoken⟩
              · exact h
              · rcases List.infix_cons_iff.mp h with hprefix | h
                · exact absurd (List.cons_prefix_cons.mp hprefix).1.symm (htoken k)
                · exact h
            obtain ⟨a, t, b, htext, ht⟩ := ih hcells
            refine ⟨w ++ c.shown :: a, t, b, ?_, ht⟩
            rw [List.map_cons, ← List.nil_append (cells.map Cell.shown), htext]
            simp
          rw [htokens] at h
          by_cases hw : w = []
          · subst hw
            exact hbehind h
          -- the word that ends here is the one before the symbol, or there is another one behind it
          · rw [flush_of_ne_nil hw] at h
            rcases List.infix_cons_iff.mp h with hprefix | h
            · obtain ⟨hk, hsymbol⟩ := List.cons_prefix_cons.mp hprefix
              obtain rfl := Token.word.inj hk
              have hhead : (tokens (c :: cells)).head? = some (.symbol x) := by
                obtain ⟨us, hus⟩ := hsymbol
                rw [hrest]
                exact congrArg List.head? hus.symm
              obtain ⟨t, b, htext, ht⟩ := symbol_of_head hhead
              exact ⟨[], t, b, by rw [htext]; simp, ht⟩
            · exact hbehind h

/-! ## What stands in literals and comments -/

/-- Is it part of a literal or a comment? -/
def Cell.hidden (c : Cell) : Bool := c.place = .literal || c.place = .comment

/-- A run of hidden cells of one kind becomes a single one that says nothing. -/
def skeleton : List Cell → List Cell
  | [] => []
  | c :: cells =>
      if c.hidden then
        if (skeleton cells).head? = some ⟨0x20, c.place⟩ then skeleton cells
        else ⟨0x20, c.place⟩ :: skeleton cells
      else c :: skeleton cells

theorem skeleton_ne_nil {cells : List Cell} (h : cells ≠ []) : skeleton cells ≠ [] := by
  cases cells with
  | nil => exact absurd rfl h
  | cons c cells =>
      rw [skeleton]
      split_ifs with hhidden hsame
      · rintro hnil
        rw [hnil] at hsame
        cases hsame
      · exact List.cons_ne_nil _ _
      · exact List.cons_ne_nil _ _

theorem Cell.hidden_iff {c : Cell} : c.hidden = true ↔ c.place = .literal ∨ c.place = .comment := by
  unfold hidden
  rw [Bool.or_eq_true, decide_eq_true_eq, decide_eq_true_eq]

theorem Cell.shown_of_hidden {c : Cell} (h : c.hidden = true) : c.shown = 0x20 := by
  unfold shown
  rcases hidden_iff.mp h with h | h <;> rw [h]

/-- **The collapsed text does not depend on literals and comments.** -/
theorem collapse_skeleton (inGap : Bool) (cells : List Cell) :
    collapse isWhitespace 0x20 inGap ((skeleton cells).map Cell.shown) =
      collapse isWhitespace 0x20 inGap (cells.map Cell.shown) := by
  have hspace : isWhitespace 0x20 = true := rfl
  induction cells generalizing inGap with
  | nil => rfl
  | cons c cells ih =>
      rw [skeleton]
      split_ifs with hhidden hsame
      · -- the mark of the run stands for this cell, too
        obtain ⟨rest, hrest⟩ := List.head?_eq_some_iff.mp hsame
        have hshown : Cell.shown ⟨0x20, c.place⟩ = 0x20 := Cell.shown_of_hidden hhidden
        have hnext := ih true
        rw [hrest, List.map_cons, hshown] at hnext ⊢
        rw [List.map_cons, Cell.shown_of_hidden hhidden]
        unfold collapse
        rw [hspace, if_pos rfl, if_pos rfl, ← hnext]
        simp [collapse, hspace]
      · have hshown : Cell.shown ⟨0x20, c.place⟩ = 0x20 := Cell.shown_of_hidden hhidden
        rw [List.map_cons, List.map_cons, hshown, Cell.shown_of_hidden hhidden]
        unfold collapse
        rw [hspace, if_pos rfl, if_pos rfl, ih]
      · rw [List.map_cons, List.map_cons]
        unfold collapse
        rw [ih, ih]

/-! ## Names that look like something else -/

/-- A reader that does not know of names in double quotes would begin a literal or a comment here. -/
def misleads (c : Cell) (next : Option Cell) : Bool :=
  c.place = .quoted &&
    (c.byte = 0x27 || (c.byte = 0x2D && next = some ⟨0x2D, .quoted⟩) || (c.byte = 0x2F && next = some ⟨0x2A, .quoted⟩))

/-- No name in double quotes has a single quote, or the beginning of a comment. -/
def plainNames : List Cell → Bool
  | [] => true
  | c :: cells => !misleads c cells.head? && plainNames cells

theorem head_skeleton {cells : List Cell} {x : UInt8} :
    (skeleton cells).head? = some ⟨x, .quoted⟩ ↔ cells.head? = some ⟨x, .quoted⟩ := by
  cases cells with
  | nil => exact Iff.rfl
  | cons c cells =>
      rw [skeleton]
      cases hhidden : c.hidden with
      | true =>
          have hplace : c.place ≠ .quoted := by
            rcases Cell.hidden_iff.mp hhidden with h | h <;> rw [h] <;> decide
          refine iff_of_false ?_ ?_
          · rw [if_pos rfl]
            intro h
            split_ifs at h with hsame
            · rw [hsame] at h
              exact hplace (congrArg Cell.place (Option.some.inj h))
            · exact hplace (congrArg Cell.place (Option.some.inj h))
          · intro h
            exact hplace (congrArg Cell.place (Option.some.inj h))
      | false => exact Iff.rfl

theorem misleads_of_hidden {c : Cell} (h : c.hidden = true) (next : Option Cell) : misleads c next = false := by
  unfold misleads
  rcases Cell.hidden_iff.mp h with h | h <;> rw [h] <;> rfl

theorem plainNames_skeleton (cells : List Cell) : plainNames (skeleton cells) = plainNames cells := by
  induction cells with
  | nil => rfl
  | cons c cells ih =>
      rw [skeleton, plainNames]
      split_ifs with hhidden hsame
      · rw [misleads_of_hidden hhidden, ih]
        rfl
      · have hmark : Cell.hidden ⟨0x20, c.place⟩ = true := hhidden
        rw [plainNames, misleads_of_hidden hhidden, misleads_of_hidden hmark, ih]
      · have hsame : misleads c (skeleton cells).head? = misleads c cells.head? := by
          unfold misleads
          rw [decide_eq_decide.mpr head_skeleton, decide_eq_decide.mpr head_skeleton]
        rw [plainNames, hsame, ih]

theorem readByte_not_quoted {r : Reading} (hr : r ≠ .quoted) {c : UInt8} (hc : c ≠ 0x22) (next : Option UInt8) :
    (readByte r c next).1 ≠ .quoted ∧ (readByte r c next).2 ≠ .quoted := by
  cases r with
  | quoted => exact absurd rfl hr
  | code =>
      simp only [readByte]
      rw [if_neg hc]
      split_ifs <;> exact ⟨nofun, nofun⟩
  | literal | lineComment | blockComment =>
      simp only [readByte]
      split_ifs <;> exact ⟨nofun, nofun⟩
  | blockOpen | blockClose => exact ⟨nofun, nofun⟩

/-- A text without double quotes has no names. -/
theorem plainNames_of_no_quote {src : List UInt8} (h : ∀ c ∈ src, c ≠ 0x22) {r : Reading} (hr : r ≠ .quoted) :
    plainNames (places r src) = true := by
  induction src generalizing r with
  | nil => rfl
  | cons c src ih =>
      obtain ⟨hc, hsrc⟩ := List.forall_mem_cons.mp h
      obtain ⟨hplace, hreading⟩ := readByte_not_quoted hr hc src.head?
      have hmisleads : ∀ next, misleads ⟨c, (readByte r c src.head?).1⟩ next = false := by
        intro next
        unfold misleads
        rw [decide_eq_false hplace]
        rfl
      rw [places, plainNames, hmisleads, ih hsrc hreading]
      rfl

end SqlPlaces
