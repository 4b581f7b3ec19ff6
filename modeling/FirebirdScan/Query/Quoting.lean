import FirebirdScan.Query.Text

/-!
# `Query.Quoting` — the quoting functions, and their copies

Every file that writes SQL has a quoting function of its own: the same loop, with one of two quote characters. A name
or a string that went through it is one lexeme of any text that it is put into, and stands for itself
(`quoting_reads_back`).
-/

namespace FirebirdScan

open SqlText

/-- The loop of the quoting functions, as the source writes it: `out` grows by `push_back`. -/
def pushQuoted (quote : UInt8) (s : Bytes) : Bytes :=
  s.foldl (fun out c => (if c = quote then out ++ [quote] else out) ++ [c]) [quote] ++ [quote]

/-- `SqlLiteral` of `firebird_scanner.cpp`. -/
def scannerSqlLiteral (s : Bytes) : Bytes := pushQuoted 0x27 s

/-- `SqlLiteral` of `firebird_view_analysis.cpp`. -/
def viewAnalysisSqlLiteral (s : Bytes) : Bytes := pushQuoted 0x27 s

/-- `SqlLiteral` of `firebird_profile_table.cpp`. -/
def profileTableSqlLiteral (s : Bytes) : Bytes := pushQuoted 0x27 s

/-- `QuoteIdent` of `firebird_profile_table.cpp`. -/
def profileTableQuoteIdent (ident : Bytes) : Bytes := pushQuoted 0x22 ident

/-- `SqlLiteral` of `firebird_index_profile.cpp`. -/
def indexProfileSqlLiteral (s : Bytes) : Bytes := pushQuoted 0x27 s

/-- The loop doubles the quotes of its argument. -/
theorem pushQuoted_eq (quote : UInt8) (s : Bytes) : pushQuoted quote s = quoted quote s := by
  have hloop (out : Bytes) :
      s.foldl (fun out c => (if c = quote then out ++ [quote] else out) ++ [c]) out =
        out ++ s.flatMap fun c => if c = quote then [quote, c] else [c] := by
    induction s generalizing out with
    | nil => exact (List.append_nil out).symm
    | cons c s ih =>
        rw [List.foldl_cons, ih, List.flatMap_cons]
        by_cases hc : c = quote
        · rw [if_pos hc, if_pos hc, List.append_assoc, List.append_assoc]
          rfl
        · rw [if_neg hc, if_neg hc, List.append_assoc]
  unfold pushQuoted quoted
  rw [hloop]
  rfl

/-- Different arguments are quoted differently. -/
theorem quoted_injective (quote : UInt8) : Function.Injective (quoted quote) := by
  intro s t h
  have hs := @readQuoted_quoted quote s [] nofun
  have ht := @readQuoted_quoted quote t [] nofun
  rw [h, ht] at hs
  exact (Prod.mk.inj (Option.some.inj hs)).1.symm

/-- What quoting has to do, for a quoting function and its kind of quotes: what is quoted reads back as itself, up to
    what follows it, unless that begins with the quote; it is one lexeme of any text that it is put into between
    others; and no two arguments are quoted alike. -/
structure ReadsBack (q : Quote) (f : Bytes → Bytes) : Prop where
  read : ∀ s rest : Bytes, rest.head? ≠ some q.byte → readQuoted q.byte (f s ++ rest) = some (s, rest)
  lex : ∀ (s front rest : Bytes) (ts us : List Lexeme), SqlText.lex front = some ts → front.getLast? ≠ some q.byte →
    SqlText.lex rest = some us → rest.head? ≠ some q.byte →
    SqlText.lex (front ++ f s ++ rest) = some (ts ++ q.lexeme s :: us)
  injective : Function.Injective f

theorem quoted_readsBack (q : Quote) : ReadsBack q (quoted q.byte) where
  read := fun s _ hrest => readQuoted_quoted q.byte s hrest
  lex := fun s _ _ _ _ hfront hend hr hhead => lex_quoted_between q s hfront hend hr hhead
  injective := quoted_injective q.byte

/-- **Quoting is proof against its argument**, and the copies of the two functions are the functions themselves. -/
theorem quoting_reads_back :
    ReadsBack .double quoteIdent ∧ ReadsBack .single sqlLiteral ∧
      (∀ s, scannerSqlLiteral s = sqlLiteral s) ∧ (∀ s, viewAnalysisSqlLiteral s = sqlLiteral s) ∧
      (∀ s, profileTableSqlLiteral s = sqlLiteral s) ∧ (∀ s, indexProfileSqlLiteral s = sqlLiteral s) ∧
      ∀ ident, profileTableQuoteIdent ident = quoteIdent ident :=
  ⟨quoted_readsBack .double, quoted_readsBack .single, pushQuoted_eq 0x27, pushQuoted_eq 0x27, pushQuoted_eq 0x27,
    pushQuoted_eq 0x27, pushQuoted_eq 0x22⟩

end FirebirdScan
