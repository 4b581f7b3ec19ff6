import FirebirdScan.Types

/-!
# `Sql` — quoting names and strings for the server

`QuoteIdent` and `SqlLiteral` double the embedded quotes of their argument and differ only in the quote
character. `readQuoted` is the server's side, the lexer of a quoted token, and `readQuoted_quoted` the
round trip: whatever the argument, the server reads back exactly it.
-/

namespace FirebirdScan

/-- The loop of `QuoteIdent` and `SqlLiteral`, with the quotes around it. -/
def quoted (quote : UInt8) (s : Bytes) : Bytes :=
  quote :: s.flatMap (fun c => if c = quote then [quote, c] else [c]) ++ [quote]

/-- `QuoteIdent`. -/
def quoteIdent (name : Bytes) : Bytes := quoted 0x22 name

/-- `SqlLiteral`. -/
def sqlLiteral (s : Bytes) : Bytes := quoted 0x27 s

/-- The server's lexer after an opening quote: a doubled quote is a character of the token, a single one
    ends it. -/
def readQuotedBody (quote : UInt8) : Bytes → Option (Bytes × Bytes)
  | [] => none
  | [c] => if c = quote then some ([], []) else none
  | c :: d :: s =>
      if c = quote then
        if d = quote then (readQuotedBody quote s).map fun (t, rest) => (quote :: t, rest)
        else some ([], d :: s)
      else (readQuotedBody quote (d :: s)).map fun (t, rest) => (c :: t, rest)

/-- The server's lexer at an opening quote. -/
def readQuoted (quote : UInt8) : Bytes → Option (Bytes × Bytes)
  | [] => none
  | c :: s => if c = quote then readQuotedBody quote s else none

theorem readQuotedBody_end {quote : UInt8} {rest : Bytes} (hrest : rest.head? ≠ some quote) :
    readQuotedBody quote (quote :: rest) = some ([], rest) := by
  cases rest with
  | nil => simp [readQuotedBody]
  | cons d rest =>
      have hd : d ≠ quote := fun h => hrest (by simp [h])
      simp [readQuotedBody, hd]

/-- A character that is not the quote is read as itself, in front of a token that is not empty. -/
theorem readQuotedBody_char {quote c : UInt8} (hc : c ≠ quote) {s : Bytes} (hs : s ≠ []) :
    readQuotedBody quote (c :: s) =
      (readQuotedBody quote s).map fun (t, rest) => (c :: t, rest) := by
  obtain ⟨d, s, rfl⟩ := List.exists_cons_of_ne_nil hs
  simp [readQuotedBody, hc]

/-- **A quoted string reads back as the string**, whatever follows it, as long as that is not another
    quote. -/
theorem readQuoted_quoted (quote : UInt8) (s : Bytes) {rest : Bytes} (hrest : rest.head? ≠ some quote) :
    readQuoted quote (quoted quote s ++ rest) = some (s, rest) := by
  simp only [readQuoted, quoted, List.cons_append, if_pos]
  induction s with
  | nil => simpa using readQuotedBody_end hrest
  | cons c s ih =>
      by_cases hc : c = quote
      · subst hc
        simp only [List.append_assoc, List.singleton_append] at ih
        simp [readQuotedBody, ih]
      · rw [List.flatMap_cons, if_neg hc, List.singleton_append, List.cons_append, List.cons_append,
          readQuotedBody_char hc (by simp), ih]
        rfl

/-- The expression the projection and the pushed predicates use for a column: a `DECFLOAT` column is
    surfaced as text, so the server is asked for its text. -/
def columnSql (name : Bytes) (decfloat : Bool) : Bytes :=
  if decfloat then utf8 "CAST(" ++ quoteIdent name ++ utf8 " AS VARCHAR(64))" else quoteIdent name

end FirebirdScan
