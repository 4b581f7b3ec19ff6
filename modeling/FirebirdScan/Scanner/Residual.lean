import FirebirdScan.Lib.Window
import FirebirdScan.Scanner.Paging

/-!
# `Scanner.Residual` — a filter in front of the slice or behind it

A filter that is pushed is part of the statement, so the slice counts the rows that pass it. A filter that stays
with DuckDB is applied to the rows of the slice. Whether a filter is pushed is decided by its shape, its literals
and the options of the scan, so two runs of one query may count differently.

`QueryRun` is a run as far as that matters, and `hookRun` the run that the hook makes of a list of predicates.
`paging_transparent_iff` says when two runs return the same rows.
-/

namespace FirebirdScan

open SqlText SqlText.Select Window

/-! ## A run -/

/-- The rows of a relation in the order of a scan. They are distinct, whatever their columns hold: each has a
    `RDB$DB_KEY` of its own. -/
structure TableContent (ρ : Type) where
  rows : List ρ
  distinct : rows.Nodup

/-- One run of a query: what the statement is built from, which rows pass the conditions that were pushed, and
    which pass the filters that DuckDB applies above the scan. -/
structure QueryRun (ρ : Type) where
  bind : ScanBindData
  columnIds : List Nat
  filters : List (Nat × TableFilter)
  pushed : ρ → Bool
  residual : ρ → Bool

namespace QueryRun

variable {ρ : Type} (run : QueryRun ρ) (S : RowServer ρ) (api : DuckdbApi) (paging : PagingArguments)
  (spec : PartitionSpec)

/-- The server applies the conditions that were pushed, before any `ROWS`. -/
def Serves (content : TableContent ρ) : Prop :=
  S.Delivers ((run.bind.paged paging).unslicedSql api run.columnIds run.filters spec)
    ((run.bind.paged paging).partitionQuery api run.columnIds run.filters spec).params
    (content.rows.filter run.pushed)

/-- The rows that the query returns, once the scan has been called often enough. -/
def Returns (target : Nat) (result : List ρ) : Prop :=
  ∃ enough, ∀ calls ≥ enough, ∃ chunks,
    (run.bind.paged paging).scan S api run.columnIds run.filters target [spec] calls = some chunks ∧
      result = chunks.flatten.filter run.residual

/-- A row passes the whole `WHERE` clause. -/
def passes (row : ρ) : Bool := run.pushed row && run.residual row

/-- A row has its place in the slice: the rows ahead of it that pass what was pushed are at least the offset, and
    fewer than the offset and the limit. -/
def sliced [DecidableEq ρ] (rowLimit : Int64) (rowOffset : Option Int64) (content : TableContent ρ) (row : ρ) : Bool :=
  within run.pushed (rowOffset.getD 0).toNatClampNeg ((rowOffset.getD 0).toNatClampNeg + rowLimit.toNatClampNeg)
    content.rows row

end QueryRun

section Hook

variable {ρ : Type} (api : DuckdbApi) (bind : ScanBindData) (colIds : List Nat) (filters : List (Nat × TableFilter))
  (rest : ρ → Bool) (holds : Expression → ρ → Bool) (predicates : List Expression)

/-- The run that the hook makes of a list of predicates: those it takes are pushed, the others stay. Beside them
    there is the `rest` of the `WHERE` clause, which is pushed. -/
def hookRun : QueryRun ρ where
  bind :=
    { bind with toFirebirdBindData := (pushdownComplexFilter api bind.toFirebirdBindData colIds predicates).1 }
  columnIds := colIds
  filters := filters
  pushed row := rest row &&
    (predicates.filter fun e => (pushdownOf api bind.toFirebirdBindData colIds e).predicate.isSome).all
      fun e => holds e row
  residual row := (pushdownComplexFilter api bind.toFirebirdBindData colIds predicates).2.all fun e => holds e row

/-- Whatever the hook takes, a row passes when it passes every predicate. -/
theorem hookRun_passes (row : ρ) :
    (hookRun api bind colIds filters rest holds predicates).passes row =
      (rest row && predicates.all fun e => holds e row) := by
  unfold QueryRun.passes hookRun
  rw [pushdownComplexFilter_eq, Bool.and_assoc]
  refine congrArg (rest row && ·) ?_
  induction predicates with
  | nil => rfl
  | cons e predicates ih =>
      rw [List.all_cons, ← ih, List.filter_cons, List.filter_cons]
      cases (pushdownOf api bind.toFirebirdBindData colIds e).predicate with
      | none => exact Bool.and_left_comm _ _ _
      | some ep => exact Bool.and_assoc _ _ _

end Hook

/-! ## The result -/

section Result

variable {ρ : Type} {run : QueryRun ρ} {S : RowServer ρ} {api : DuckdbApi} {paging : PagingArguments}
  {spec : PartitionSpec} {content : TableContent ρ} {target : Nat}

/-- A query returns one result. -/
theorem returns_unique {result result' : List ρ} (h : run.Returns S api paging spec target result)
    (h' : run.Returns S api paging spec target result') : result = result' := by
  obtain ⟨n, hn⟩ := h
  obtain ⟨n', hn'⟩ := h'
  obtain ⟨chunks, hchunks, hresult⟩ := hn (max n n') (Nat.le_max_left n n')
  obtain ⟨chunks', hchunks', hresult'⟩ := hn' (max n n') (Nat.le_max_right n n')
  rw [hchunks] at hchunks'
  rw [hresult, hresult', Option.some.inj hchunks']

/-- **What a run returns**: of the rows that pass what was pushed the slice, and of the slice what passes the
    rest. -/
theorem returns_slice {partitions rowOffset : Option Int64} {rowLimit : Int64}
    (hbind : bindPaging partitions (some rowLimit) rowOffset = .ok paging) (htarget : 0 < target)
    (hserves : run.Serves S api paging spec content) :
    run.Returns S api paging spec target
      ((window (rowOffset.getD 0).toNatClampNeg ((rowOffset.getD 0).toNatClampNeg + rowLimit.toNatClampNeg)
        (content.rows.filter run.pushed)).filter run.residual) := by
  refine ⟨rowLimit.toNatClampNeg, fun calls hcalls => ?_⟩
  obtain ⟨chunks, hchunks, hflatten⟩ := @Paging.scanCalls_eq _ _ _ target calls _ _ (paged_owes hbind hserves)
  refine ⟨chunks, hchunks, congrArg (List.filter run.residual) ?_⟩
  -- the calls have room for the slice
  have hroom : rowLimit.toNatClampNeg ≤ calls * target :=
    Nat.le_trans hcalls (Nat.le_mul_of_pos_right calls htarget)
  rw [hflatten, List.take_take, Nat.min_eq_right hroom, window, List.drop_take, Nat.add_sub_cancel_left]

end Result

/-! ## Two runs -/

/-- **Two runs return the same rows exactly when no rejected row moves another across a boundary of the slice.**
    Let two runs of a query have the same paging arguments and the same `WHERE` clause, of which they may push
    different parts. They return the same rows exactly when every row that passes the whole clause has its place
    in both slices or in neither, each slice counting the rows ahead that pass what its own run pushes. So it is
    for any two runs, and for the runs that the hook makes of the same predicates under different options. -/
theorem paging_transparent_iff {ρ : Type} [DecidableEq ρ] (S : RowServer ρ) (api : DuckdbApi)
    (content : TableContent ρ) {partitions rowOffset : Option Int64} {rowLimit : Int64} {paging : PagingArguments}
    (hbind : bindPaging partitions (some rowLimit) rowOffset = .ok paging) (spec : PartitionSpec) {target : Nat}
    (htarget : 0 < target) :
    (∀ run run' : QueryRun ρ, run.Serves S api paging spec content → run'.Serves S api paging spec content →
      (∀ row ∈ content.rows, run.passes row = run'.passes row) →
      ((∃ result, run.Returns S api paging spec target result ∧ run'.Returns S api paging spec target result) ↔
        ∀ row ∈ content.rows, run.passes row = true →
          run.sliced rowLimit rowOffset content row = run'.sliced rowLimit rowOffset content row)) ∧
    ∀ (bind bind' : ScanBindData) (colIds : List Nat) (filters : List (Nat × TableFilter)) (rest : ρ → Bool)
      (holds : Expression → ρ → Bool) (predicates : List Expression),
      (hookRun api bind colIds filters rest holds predicates).Serves S api paging spec content →
      (hookRun api bind' colIds filters rest holds predicates).Serves S api paging spec content →
      ((∃ result, (hookRun api bind colIds filters rest holds predicates).Returns S api paging spec target result ∧
          (hookRun api bind' colIds filters rest holds predicates).Returns S api paging spec target result) ↔
        ∀ row ∈ content.rows, (rest row && predicates.all fun e => holds e row) = true →
          (hookRun api bind colIds filters rest holds predicates).sliced rowLimit rowOffset content row =
            (hookRun api bind' colIds filters rest holds predicates).sliced rowLimit rowOffset content row) := by
  have hruns (run run' : QueryRun ρ) (hserves : run.Serves S api paging spec content)
      (hserves' : run'.Serves S api paging spec content)
      (hsame : ∀ row ∈ content.rows, run.passes row = run'.passes row) :
      (∃ result, run.Returns S api paging spec target result ∧ run'.Returns S api paging spec target result) ↔
        ∀ row ∈ content.rows, run.passes row = true →
          run.sliced rowLimit rowOffset content row = run'.sliced rowLimit rowOffset content row := by
    have hreturns := returns_slice hbind htarget hserves
    have hreturns' := returns_slice hbind htarget hserves'
    -- each run returns one slice only, so it is about the two slices
    refine Iff.trans ?_ (filter_window_eq_iff content.distinct hsame _ _)
    constructor
    · rintro ⟨result, hresult, hresult'⟩
      rw [returns_unique hreturns hresult, returns_unique hreturns' hresult']
    · intro heq
      exact ⟨_, hreturns, heq ▸ hreturns'⟩
  refine ⟨hruns, fun bind bind' colIds filters rest holds predicates hserves hserves' => ?_⟩
  have hpasses (bind : ScanBindData) (row : ρ) := hookRun_passes api bind colIds filters rest holds predicates row
  have hiff := hruns _ _ hserves hserves' fun row _ => (hpasses bind row).trans (hpasses bind' row).symm
  simp only [hpasses] at hiff
  exact hiff

/-- A table with one `CHARACTER SET NONE` column, scanned with and without the opt-in. -/
def cityTable (nonePushdown : Bool) : ScanBindData where
  columnNames := [utf8 "CITY"]
  columnDescs := [{ name := utf8 "CITY", sqltype := .varying, characterSetId := 0 }]
  nonePushdown := nonePushdown
  tableName := utf8 "TXT"

/-- A server that has two cities in it, in the order given. -/
def cityServer (cities : List String) : RowServer String where
  rows ts _ := some (if .string (utf8 "Rio") ∈ ts then cities.filter (· = "Rio") else cities)

/-- The run of `CITY = 'Rio'`. -/
def cityRun (nonePushdown : Bool) : QueryRun String :=
  hookRun .v1_5 (cityTable nonePushdown) [0] [] (fun _ => true) (fun _ city => city = "Rio")
    [.boundComparison .compareEqual (.boundColumnRef 0 ⟨.varchar, 0, 0⟩) (.boundConstant (.varchar "Rio"))]

/-- A limit of one row. -/
def firstRow : PagingArguments where
  partitionsOverride := .serial
  limitOverride := some 1
  offsetOverride := none

/-- With the opt-in the predicate is part of the statement, without it it is not. -/
theorem cityRun_serves (cities : List String) (hdistinct : cities.Nodup) (nonePushdown : Bool) :
    (cityRun nonePushdown).Serves (cityServer cities) .v1_5 firstRow {} ⟨cities, hdistinct⟩ := by
  have hfrom : lex (((cityRun false).bind.paged firstRow).unslicedSql .v1_5 [0] [] {}) =
      some [keyword "SELECT", .ident (utf8 "CITY"), keyword "FROM", .ident (utf8 "TXT"), keyword "ORDER",
        keyword "BY", keyword "RDB$DB_KEY"] := by decide +kernel
  have hwhere : lex (((cityRun true).bind.paged firstRow).unslicedSql .v1_5 [0] [] {}) =
      some [keyword "SELECT", .ident (utf8 "CITY"), keyword "FROM", .ident (utf8 "TXT"), keyword "WHERE", lparen,
        lparen, .ident (utf8 "CITY"), .symbol 0x3D, keyword "_WIN1252", .string (utf8 "Rio"), rparen, rparen,
        keyword "ORDER", keyword "BY", keyword "RDB$DB_KEY"] := by decide +kernel
  cases nonePushdown with
  | true =>
      have hpushed (city : String) : (cityRun true).pushed city = (true && (decide (city = "Rio") && true)) := rfl
      refine ⟨_, hwhere, congrArg some ((if_pos (by decide)).trans (List.filter_congr fun city _ => ?_))⟩
      rw [hpushed, Bool.true_and, Bool.and_true]
  | false =>
      refine ⟨_, hfrom, congrArg some ((if_neg (by decide)).trans (List.filter_eq_self.mpr fun city _ => ?_).symm)⟩
      rfl

/-- With the city in front, both runs return it. -/
theorem paging_transparent_iff_front :
    ∃ result, (cityRun true).Returns (cityServer ["Rio", "Natal"]) .v1_5 firstRow {} 2048 result ∧
      (cityRun false).Returns (cityServer ["Rio", "Natal"]) .v1_5 firstRow {} 2048 result :=
  ((@paging_transparent_iff String _ (cityServer ["Rio", "Natal"]) .v1_5 ⟨["Rio", "Natal"], by decide⟩ none none 1
    firstRow rfl {} 2048 (by decide)).1 (cityRun true) (cityRun false) (cityRun_serves _ (by decide) true)
    (cityRun_serves _ (by decide) false) (by decide)).mpr (by decide)

/-- **The opt-in changes the result**: with another city in front, the slice of one row is that city, and the
    filter that was not pushed rejects it. -/
theorem paging_not_transparent :
    (cityRun true).Serves (cityServer ["Natal", "Rio"]) .v1_5 firstRow {} ⟨["Natal", "Rio"], by decide⟩ ∧
    (cityRun false).Serves (cityServer ["Natal", "Rio"]) .v1_5 firstRow {} ⟨["Natal", "Rio"], by decide⟩ ∧
    (cityRun true).Returns (cityServer ["Natal", "Rio"]) .v1_5 firstRow {} 2048 ["Rio"] ∧
    (cityRun false).Returns (cityServer ["Natal", "Rio"]) .v1_5 firstRow {} 2048 [] ∧
    ¬∃ result, (cityRun true).Returns (cityServer ["Natal", "Rio"]) .v1_5 firstRow {} 2048 result ∧
      (cityRun false).Returns (cityServer ["Natal", "Rio"]) .v1_5 firstRow {} 2048 result := by
  have hbind : bindPaging none (some 1) none = .ok firstRow := rfl
  have hpushed := cityRun_serves ["Natal", "Rio"] (by decide) true
  have hkept := cityRun_serves ["Natal", "Rio"] (by decide) false
  have hreturns : (cityRun true).Returns (cityServer ["Natal", "Rio"]) .v1_5 firstRow {} 2048 ["Rio"] :=
    returns_slice hbind (by decide) hpushed
  have hreturns' : (cityRun false).Returns (cityServer ["Natal", "Rio"]) .v1_5 firstRow {} 2048 [] :=
    returns_slice hbind (by decide) hkept
  refine ⟨hpushed, hkept, hreturns, hreturns', fun ⟨result, h, h'⟩ => ?_⟩
  have heq := (returns_unique hreturns h).trans (returns_unique hreturns' h').symm
  cases heq

end FirebirdScan
