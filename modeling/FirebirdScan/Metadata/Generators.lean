import FirebirdScan.Lib.Emission
import FirebirdScan.Lib.Raising
import FirebirdScan.Query.Quoting

/-!
# `Metadata.Generators` — the generators and their values (`firebird_generators`)

The value of a generator is a query of its own, with the name of the generator in it, so that one that may not be read
is `NULL` and the others are not (`generators_isolated`). The rows are then handed out in chunks, once each
(`generators_deliver`).
-/

namespace FirebirdScan

open SqlText Emission Raising

/-! ## The function -/

/-- `STANDARD_VECTOR_SIZE` -/
def standardVectorSize : Nat := 2048

/-- `QuoteFbIdent`. -/
def quoteFbIdent (id : Bytes) : Bytes := pushQuoted 0x22 id

/-- The query of one generator. -/
def genIdSql (name : Bytes) : Bytes := utf8 "SELECT GEN_ID(" ++ quoteFbIdent name ++ utf8 ", 0) FROM RDB$DATABASE"

/-- A row of the list of generators, with its initial value. -/
structure GeneratorListRow where
  name : Bytes
  initial : Option Int64

/-- The server: what the list of generators returns, and the first row of any other query, whose value may be `NULL`. -/
structure GeneratorServer where
  listed : Except Bytes (List GeneratorListRow)
  firstRow : Bytes → Except Bytes (Option (Option Int64))

/-- `GenRow`; `none` is `NULL`. -/
structure GenRow where
  name : Bytes
  initial : Option Int64
  current : Option Int64 := none
deriving DecidableEq

section Source

variable (server : GeneratorServer)

/-- The second phase, for one generator: what its query throws is swallowed. -/
def readCurrent (r : GenRow) : GenRow :=
  match server.firstRow (genIdSql r.name) with
  | .ok (some (some value)) => { r with current := some value }
  | .ok (some none) => r
  | .ok none => r
  | .error _ => r

/-- `GenInitGlobal`, with its lease. -/
def genInitGlobal : Except Bytes (Cursor GenRow) := do
  let listed ← server.listed
  let rows : List GenRow := listed.map fun g => { name := g.name, initial := g.initial }
  .ok { rows := rows.map (readCurrent server) }

end Source

/-- `GenFunction`. -/
def genFunction (g : Cursor GenRow) : List GenRow × Cursor GenRow := fill standardVectorSize g

/-- The chunks of the first calls. -/
def genCalls : Nat → Cursor GenRow → List (List GenRow)
  | 0, _ => []
  | n + 1, g => (genFunction g).1 :: genCalls n (genFunction g).2

theorem genCalls_eq (n : Nat) (g : Cursor GenRow) : genCalls n g = calls standardVectorSize n g := by
  induction n generalizing g with
  | zero => rfl
  | succ n ih =>
      unfold genCalls calls
      rw [ih]
      rfl

/-! ## The query -/

/-- What the query of a generator asks. -/
def genIdLexemes (name : Bytes) : List Lexeme :=
  [keyword "SELECT", keyword "GEN_ID", lparen, .ident name, comma, .word (utf8 "0"), rparen, keyword "FROM",
    keyword "RDB$DATABASE"]

/-- It asks for this generator, whatever its name is. -/
theorem lex_genIdSql (name : Bytes) : lex (genIdSql name) = some (genIdLexemes name) := by
  have hfront : lex (utf8 "SELECT GEN_ID(") = some [keyword "SELECT", keyword "GEN_ID", lparen] := by decide
  have hrest : lex (utf8 ", 0) FROM RDB$DATABASE") =
      some [comma, .word (utf8 "0"), rparen, keyword "FROM", keyword "RDB$DATABASE"] := by decide
  unfold genIdSql quoteFbIdent
  rw [pushQuoted_eq]
  exact (quoted_readsBack .double).lex name _ _ _ _ hfront (by decide) hrest (by decide)

/-- Two generators are not asked for in one text. -/
theorem genIdSql_other {name other : Bytes} (hne : other ≠ name) : lex (genIdSql other) ≠ some (genIdLexemes name) := by
  rw [lex_genIdSql]
  intro h
  have hident := congrArg (fun ts : List Lexeme => ts[3]?) (Option.some.inj h)
  exact hne (Lexeme.ident.inj (Option.some.inj hident))

/-! ## The rows -/

/-- The row reports the generator: its current value is there exactly if its own query returns one. -/
structure ReportsGenerator (server : GeneratorServer) (g : GeneratorListRow) (row : GenRow) : Prop where
  name : row.name = g.name
  initial : row.initial = g.initial
  current : ∀ value, row.current = some value ↔ server.firstRow (genIdSql g.name) = .ok (some (some value))

section Rows

variable {server server' : GeneratorServer} {g g' : Cursor GenRow}

theorem readCurrent_reports (server : GeneratorServer) (l : GeneratorListRow) :
    ReportsGenerator server l (readCurrent server { name := l.name, initial := l.initial }) := by
  have hkept : (readCurrent server { name := l.name, initial := l.initial }).name = l.name ∧
      (readCurrent server { name := l.name, initial := l.initial }).initial = l.initial := by
    unfold readCurrent
    split <;> exact ⟨rfl, rfl⟩
  refine ⟨hkept.1, hkept.2, ?_⟩
  intro value
  unfold readCurrent
  rcases hfirst : server.firstRow (genIdSql l.name) with e | _ | _ | value' <;> simp

theorem genInitGlobal_ok_iff :
    genInitGlobal server = .ok g ↔
      ∃ listed, server.listed = .ok listed ∧
        { rows := listed.map fun l => readCurrent server { name := l.name, initial := l.initial } } = g := by
  unfold genInitGlobal
  rw [bind_ok_iff]
  simp only [List.map_map, Except.ok.injEq]
  rfl

/-- The rows, and the generators that they report. -/
theorem genInitGlobal_reports (hinit : genInitGlobal server = .ok g) :
    g.position = 0 ∧ ∃ listed, server.listed = .ok listed ∧ List.Forall₂ (ReportsGenerator server) listed g.rows := by
  obtain ⟨listed, hlisted, rfl⟩ := genInitGlobal_ok_iff.mp hinit
  refine ⟨rfl, listed, hlisted, ?_⟩
  rw [List.forall₂_map_right_iff, List.forall₂_same]
  intro l _
  exact readCurrent_reports server l

/-- **Every generator is a row**, once and in the order of the list, in chunks of `STANDARD_VECTOR_SIZE` of which none is
    empty before the last row, so that a reader who stops at an empty chunk has all of them; a row reports its generator,
    and the query behind it asked for this generator. -/
theorem generators_deliver (hinit : genInitGlobal server = .ok g) (n : Nat) :
    Delivers standardVectorSize g.rows (genCalls n g) ∧
      (g.rows.length ≤ n * standardVectorSize → (taken (genCalls n g)).flatten = g.rows) ∧
      ∃ listed, server.listed = .ok listed ∧ List.Forall₂ (ReportsGenerator server) listed g.rows ∧
        ∀ l ∈ listed, lex (genIdSql l.name) = some (genIdLexemes l.name) := by
  obtain ⟨hstart, listed, hlisted, hreports⟩ := genInitGlobal_reports hinit
  obtain ⟨rows, position⟩ := g
  obtain rfl : position = 0 := hstart
  rw [genCalls_eq]
  have hsize : 0 < standardVectorSize := by decide
  exact ⟨delivers_calls hsize n rows, flatten_taken_calls hsize, listed, hlisted, hreports, fun l _ => lex_genIdSql l.name⟩

/-- The same row, up to the current value of one generator. -/
def SameButCurrent (name : Bytes) (row row' : GenRow) : Prop :=
  row'.name = row.name ∧ row'.initial = row.initial ∧ (row.name ≠ name → row'.current = row.current)

/-- **A generator that fails is `NULL` alone.** Two servers that list the same generators and answer alike, except where
    they are asked for one of them: call by call the function returns the same rows, but for the value of that one. -/
theorem generators_isolated {name : Bytes} (hlisted : server'.listed = server.listed)
    (hothers : ∀ text, lex text ≠ some (genIdLexemes name) → server'.firstRow text = server.firstRow text)
    (hinit : genInitGlobal server = .ok g) (hinit' : genInitGlobal server' = .ok g') (n : Nat) :
    List.Forall₂ (List.Forall₂ (SameButCurrent name)) (genCalls n g) (genCalls n g') := by
  obtain ⟨listed, hok, rfl⟩ := genInitGlobal_ok_iff.mp hinit
  obtain ⟨listed', hok', rfl⟩ := genInitGlobal_ok_iff.mp hinit'
  obtain rfl : listed = listed' := Except.ok.inj (hok.symm.trans (hlisted.symm.trans hok'))
  have hsame : ∀ l ∈ listed, SameButCurrent name (readCurrent server { name := l.name, initial := l.initial })
      (readCurrent server' { name := l.name, initial := l.initial }) := by
    intro l _
    have hreport := readCurrent_reports server l
    have hreport' := readCurrent_reports server' l
    refine ⟨hreport'.name.trans hreport.name.symm, hreport'.initial.trans hreport.initial.symm, ?_⟩
    rw [hreport.name]
    intro hne
    apply Option.ext
    intro value
    rw [hreport'.current, hreport.current, hothers _ (genIdSql_other hne)]
  have hrows : List.Forall₂ (SameButCurrent name)
      (listed.map fun l => readCurrent server { name := l.name, initial := l.initial })
      (listed.map fun l => readCurrent server' { name := l.name, initial := l.initial }) := by
    rw [List.forall₂_map_left_iff, List.forall₂_map_right_iff, List.forall₂_same]
    exact hsame
  rw [genCalls_eq, genCalls_eq, calls_eq, calls_eq, List.forall₂_map_left_iff, List.forall₂_map_right_iff,
    List.forall₂_same]
  intro k _
  exact List.forall₂_take _ (List.forall₂_drop _ hrows)

end Rows

/-- Two generators, of which the second answers as it is told to. -/
def secretGenerator (secret : Except Bytes (Option (Option Int64))) : GeneratorServer where
  listed := .ok [⟨utf8 "ORDER_ID", some 1⟩, ⟨utf8 "SECRET", none⟩]
  firstRow text := if text = genIdSql (utf8 "SECRET") then secret else .ok (some (some 42))

/-- The state of the function for them. -/
def secretRows (secret : Except Bytes (Option (Option Int64))) : Cursor GenRow where
  rows :=
    [readCurrent (secretGenerator secret) { name := utf8 "ORDER_ID", initial := some 1 },
      readCurrent (secretGenerator secret) { name := utf8 "SECRET", initial := none }]

theorem generators_deliver_secret :
    Delivers standardVectorSize (secretRows (.error [])).rows (genCalls 2 (secretRows (.error []))) ∧
      ((secretRows (.error [])).rows.length ≤ 2 * standardVectorSize →
        (taken (genCalls 2 (secretRows (.error [])))).flatten = (secretRows (.error [])).rows) ∧
      ∃ listed, (secretGenerator (.error [])).listed = .ok listed ∧
        List.Forall₂ (ReportsGenerator (secretGenerator (.error []))) listed (secretRows (.error [])).rows ∧
        ∀ l ∈ listed, lex (genIdSql l.name) = some (genIdLexemes l.name) := by
  have hinit : genInitGlobal (secretGenerator (.error [])) = .ok (secretRows (.error [])) := rfl
  exact generators_deliver hinit 2

/-- Whether the second may be read makes no difference to the first. -/
theorem generators_isolated_secret :
    List.Forall₂ (List.Forall₂ (SameButCurrent (utf8 "SECRET"))) (genCalls 2 (secretRows (.ok (some (some 7)))))
      (genCalls 2 (secretRows (.error []))) := by
  have hinit : genInitGlobal (secretGenerator (.ok (some (some 7)))) = .ok (secretRows (.ok (some (some 7)))) := rfl
  have hinit' : genInitGlobal (secretGenerator (.error [])) = .ok (secretRows (.error [])) := rfl
  have hlisted : (secretGenerator (.error [])).listed = (secretGenerator (.ok (some (some 7)))).listed := rfl
  refine generators_isolated hlisted ?_ hinit hinit' 2
  intro text hother
  have hne : text ≠ genIdSql (utf8 "SECRET") := by
    rintro rfl
    exact hother (lex_genIdSql _)
  unfold secretGenerator
  dsimp only
  rw [if_neg hne, if_neg hne]

end FirebirdScan
