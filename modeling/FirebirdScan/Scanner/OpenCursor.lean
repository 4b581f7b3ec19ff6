import FirebirdScan.Scanner.Partitions
import FirebirdScan.Scanner.Split

/-!
# `Scanner.OpenCursor` — the query of a partition (`OpenNextPartitionCursor`)

The key range of the partition and the predicates of the hook become one extra predicate, and a `LIMIT` is
pushed as `ROWS` where the scan has a safe order; elsewhere the worker slices the rows itself (`pagination`).

Every text that is put together here is a fragment with known lexemes (`pushdownOf_places`,
`combinedPredicate_places`), so the statement is as intended unless a name imitates the keyword the builder
searches for (`partitionQuery_intended_iff`).
-/

namespace FirebirdScan

open SqlText SqlText.Select

/-! ## The source -/

/-- `FirebirdBindData`, with the fields that the cursor reads. -/
structure ScanBindData extends FirebirdBindData where
  tableName : Bytes
  pk : Option PrimaryKeyInfo := none
  isView : Bool := false
  isViewSimpleForPagination : Bool := false
  limitOverride : Option UInt64 := none
  offsetOverride : Option UInt64 := none

/-- The slice a worker takes by itself: `slice_offset` and `slice_limit`. -/
structure LocalSlice where
  offset : UInt64
  limit : UInt64
deriving DecidableEq

/-- What the pagination decision sets. -/
structure Pagination where
  orderBy : Bytes := []
  limitToPush : Option UInt64 := none
  offsetToPush : Option UInt64 := none
  localSlice : Option LocalSlice := none
deriving DecidableEq

/-- The partition's range, and the predicates of the hook behind it. -/
def combinedPredicate (whereClause : Bytes) (extra : List ExtraPredicate) : Bytes :=
  extra.foldl (fun acc ep => appendPart (utf8 " AND ") acc ep.sql) whereClause

namespace ScanBindData

variable (bind : ScanBindData)

/-- The pagination decision. -/
def pagination : Pagination :=
  match bind.limitOverride with
  | none => { offsetToPush := bind.offsetOverride }
  | some limit =>
      match bind.pk with
      -- a numeric primary key
      | some pk =>
          { orderBy := quoteIdent pk.column ++ utf8 " ASC", limitToPush := some limit
            offsetToPush := bind.offsetOverride }
      | none =>
          -- a base table without one, or a simple view
          if !bind.isView || bind.isViewSimpleForPagination then
            { orderBy := utf8 "RDB$DB_KEY", limitToPush := some limit, offsetToPush := bind.offsetOverride }
          -- a view of any other kind
          else { localSlice := some { offset := bind.offsetOverride.getD 0, limit } }

/-- The text of the key column. -/
def keyText : Bytes := (bind.pk.map fun pk => quoteIdent pk.column).getD []

/-- The arguments of `Build` for a partition. -/
def buildArgs (columnIds : List Nat) (spec : PartitionSpec) : BuildArgs where
  tableName := bind.tableName
  allColumnNames := bind.columnNames
  columnIds := columnIds
  limit := bind.pagination.limitToPush
  extraPredicate := combinedPredicate (spec.whereClause bind.keyText) bind.extraPredicates
  columnDescs := some bind.columnDescs
  noneEncoding := bind.noneEncoding
  offset := bind.pagination.offsetToPush
  paginationOrderBy := bind.pagination.orderBy

/-- The query that `OpenNextPartitionCursor` sends for a partition: the parameters of the extra predicates
    come behind those of the filters. -/
def partitionQuery (api : DuckdbApi) (columnIds : List Nat) (filters : List (Nat × TableFilter))
    (spec : PartitionSpec) : BuildResult :=
  { build api (bind.buildArgs columnIds spec) filters with
    params := (build api (bind.buildArgs columnIds spec) filters).params ++
      bind.extraPredicates.flatMap ExtraPredicate.params }

end ScanBindData

/-! ## The extra predicate -/

/-- The lexemes of the key range. -/
def PartitionSpec.placed (key : List Placed) (spec : PartitionSpec) : List Placed :=
  match spec.range with
  | none => []
  | some (lo, hi) =>
      key ++ ([.inl (.symbol 0x3E), .inl (.symbol 0x3D)] ++ words (utf8 (toString lo))) ++
        (.inl (keyword "AND") ::
          (key ++ ([.inl (.symbol 0x3C), .inl (.symbol 0x3D)] ++ words (utf8 (toString hi)))))

/-- The lexemes of the combined predicate: the key range, then each predicate of the hook. -/
def combinedPlaced (range : List Placed) (extra : List (List Placed)) : List Placed :=
  extra.foldl (fun acc ps => (if acc = [] then [] else acc ++ [.inl (keyword "AND")]) ++ paren ps) range

namespace ScanBindData

variable (bind : ScanBindData)

/-- The lexemes of the key column. -/
def keyPlaced : List Placed := (bind.pk.map fun pk => [.inl (.ident pk.column)]).getD []

/-- The condition of the extra predicate, if there is one. -/
def extraConditions (spec : PartitionSpec) (extra : List (List Placed)) : List (List Placed) :=
  if spec.range = none ∧ extra = [] then [] else [combinedPlaced (spec.placed bind.keyPlaced) extra]

/-- The lexemes of the order expression. -/
def orderLexemes : List Lexeme :=
  match bind.pk with
  | some pk => [.ident pk.column, keyword "ASC"]
  | none => [keyword "RDB$DB_KEY"]

end ScanBindData

section Combined

variable {key : Bytes} {ps : List Placed}

/-- The key range, on a key column without constants. -/
theorem whereClause_places (hkey : Fragment key ps) (hconst : constants ps = []) (spec : PartitionSpec) :
    Fragment (spec.whereClause key) (spec.placed ps) ∧ constants (spec.placed ps) = [] := by
  have hge : Glue (utf8 " >= ") [.symbol 0x3E, .symbol 0x3D] := by decide
  have hle : Glue (utf8 " <= ") [.symbol 0x3C, .symbol 0x3D] := by decide
  unfold PartitionSpec.whereClause PartitionSpec.placed
  rcases spec.range with _ | ⟨lo, hi⟩
  · exact ⟨⟨rfl, rfl, List.not_mem_nil⟩, rfl⟩
  · have hlow := hkey.between hge (by decide) (int_words lo)
    have hhigh := hkey.between hle (by decide) (int_words hi)
    refine ⟨(hlow.between and_glue (by decide) hhigh).of_eq ?_, ?_⟩
    · simp only [List.append_assoc]
    · show constants (ps ++ ([Lexeme.symbol 0x3E, .symbol 0x3D].map .inl ++ words _) ++ ([keyword "AND"].map .inl ++
        (ps ++ ([Lexeme.symbol 0x3C, .symbol 0x3D].map .inl ++ words _)))) = []
      simp only [constants_append, hconst, constants_inl, constants_words, List.append_nil]

/-- One more predicate of the hook. -/
theorem appendPart_fragment {acc part : Bytes} {qs : List Placed} (hacc : Fragment acc ps) (hpart : Fragment part qs)
    (hnil : acc = [] ↔ ps = []) :
    Fragment (appendPart (utf8 " AND ") acc part)
      ((if ps = [] then [] else ps ++ [.inl (keyword "AND")]) ++ paren qs) := by
  unfold appendPart
  by_cases hps : ps = []
  · obtain rfl := hnil.mpr hps
    rw [if_pos rfl, if_pos hps]
    exact hpart.paren
  · rw [if_neg fun h => hps (hnil.mp h), if_neg hps]
    have hplaced : ps ++ [.inl (keyword "AND")] ++ paren qs = ps ++ ([keyword "AND"].map .inl ++ paren qs) :=
      List.append_assoc _ _ _
    rw [hplaced]
    exact (hacc.between and_glue (by decide) hpart.paren).of_eq (by simp only [List.append_assoc])

theorem combinedPredicate_places {acc : Bytes} {extra : List ExtraPredicate} {pss : List (List Placed)}
    (hacc : Fragment acc ps) (hnil : acc = [] ↔ ps = []) (hextra : List.Forall₂ ExtraPredicate.Places extra pss) :
    Fragment (combinedPredicate acc extra) (combinedPlaced ps pss) ∧
      constants (combinedPlaced ps pss) = constants ps ++ extra.flatMap ExtraPredicate.params := by
  unfold combinedPredicate combinedPlaced
  induction hextra generalizing acc ps with
  | nil => exact ⟨hacc, (List.append_nil _).symm⟩
  | @cons ep qs extra pss hep _ ih =>
      have hstep := appendPart_fragment hacc hep.1 hnil
      have hne : (if ps = [] then [] else ps ++ [.inl (keyword "AND")]) ++ paren qs ≠ [] :=
        List.append_ne_nil_of_right_ne_nil _ (List.cons_ne_nil _ _)
      have hconst : constants ((if ps = [] then [] else ps ++ [.inl (keyword "AND")]) ++ paren qs) =
          constants ps ++ ep.params := by
        rw [constants_append, constants_paren, hep.2]
        by_cases hps : ps = []
        · rw [if_pos hps, hps]
        · rw [if_neg hps, constants_append]
          exact congrArg (· ++ ep.params) (List.append_nil _)
      obtain ⟨hall, hconsts⟩ := ih hstep (iff_of_false (appendPart_ne_nil _ _ _) hne)
      refine ⟨hall, hconsts.trans ?_⟩
      rw [hconst, List.flatMap_cons, List.append_assoc]

theorem combinedPredicate_eq_nil {acc : Bytes} {extra : List ExtraPredicate} :
    combinedPredicate acc extra = [] ↔ acc = [] ∧ extra = [] := by
  unfold combinedPredicate
  induction extra generalizing acc with
  | nil => exact (and_iff_left rfl).symm
  | cons ep extra ih =>
      rw [List.foldl_cons, ih]
      refine iff_of_false (fun h => appendPart_ne_nil _ _ _ h.1) (fun h => List.cons_ne_nil _ _ h.2)

end Combined

namespace ScanBindData

variable {bind : ScanBindData}

theorem keyText_fragment : Fragment bind.keyText bind.keyPlaced ∧ constants bind.keyPlaced = [] := by
  unfold keyText keyPlaced
  cases bind.pk with
  | none => exact ⟨⟨rfl, rfl, List.not_mem_nil⟩, rfl⟩
  | some pk => exact ⟨quoteIdent_fragment pk.column, rfl⟩

/-- The extra predicate of a partition. -/
theorem extraPredicate_text (columnIds : List Nat) (spec : PartitionSpec) {extra : List (List Placed)}
    (hextra : List.Forall₂ ExtraPredicate.Places bind.extraPredicates extra) :
    ExtraText (bind.buildArgs columnIds spec).extraPredicate (bind.extraConditions spec extra) ∧
      (bind.extraConditions spec extra).flatMap constants = bind.extraPredicates.flatMap ExtraPredicate.params := by
  obtain ⟨hrange, hconst⟩ := whereClause_places keyText_fragment.1 keyText_fragment.2 spec
  have htext : spec.whereClause bind.keyText = [] ↔ spec.range = none := by
    unfold PartitionSpec.whereClause
    rcases spec.range with _ | ⟨lo, hi⟩
    · exact iff_of_true rfl rfl
    · have hle : utf8 " <= " ≠ [] := by decide
      refine iff_of_false (fun h => ?_) (by simp)
      exact hle (List.append_eq_nil_iff.mp (List.append_eq_nil_iff.mp h).1).2
  have hplaced : spec.placed bind.keyPlaced = [] ↔ spec.range = none := by
    unfold PartitionSpec.placed
    rcases spec.range with _ | ⟨lo, hi⟩
    · exact iff_of_true rfl rfl
    · exact iff_of_false (by simp) (by simp)
  have hlength : bind.extraPredicates = [] ↔ extra = [] := by
    rw [← List.length_eq_zero_iff, hextra.length_eq, List.length_eq_zero_iff]
  obtain ⟨hall, hconsts⟩ := combinedPredicate_places hrange (htext.trans hplaced.symm) hextra
  rw [hconst, List.nil_append] at hconsts
  unfold extraConditions
  split_ifs with hnone
  · have hempty : (bind.buildArgs columnIds spec).extraPredicate = [] :=
      combinedPredicate_eq_nil.mpr ⟨htext.mpr hnone.1, hlength.mpr hnone.2⟩
    refine ⟨.inl ⟨hempty, rfl⟩, ?_⟩
    rw [hlength.mpr hnone.2]
    rfl
  · refine ⟨.inr ⟨fun hempty => hnone ?_, _, hall, rfl⟩, ?_⟩
    · obtain ⟨h1, h2⟩ := combinedPredicate_eq_nil.mp hempty
      exact ⟨htext.mp h1, hlength.mp h2⟩
    · rw [List.flatMap_singleton, hconsts]

/-- The order of a pushed `ROWS` is one the grammar knows. -/
theorem pagination_order (h : bind.pagination.limitToPush.isSome = true) :
    OrderText bind.pagination.orderBy bind.orderLexemes := by
  unfold pagination at h ⊢
  cases hlimit : bind.limitOverride with
  | none =>
      simp only [hlimit] at h
      cases h
  | some limit =>
      unfold orderLexemes
      simp only [hlimit] at h ⊢
      cases hpk : bind.pk with
      | some pk =>
          have hasc : Fragment (utf8 " ASC") (words (utf8 " ASC")) :=
            Fragment.words_eq [keyword "ASC"] (by decide) (by decide) (by decide)
          refine ⟨(quoteIdent_fragment pk.column).append hasc (by decide), fun cur rest => ?_⟩
          show orderExpression 0 (cur ++ [.ident pk.column] ++ [keyword "ASC"]) rest = _
          rw [List.append_assoc]
          rfl
      | none =>
          simp only [hpk] at h ⊢
          split_ifs at h ⊢ with hsafe
          · have hkey : Fragment (utf8 "RDB$DB_KEY") (words (utf8 "RDB$DB_KEY")) :=
              Fragment.words_eq [keyword "RDB$DB_KEY"] (by decide) (by decide) (by decide)
            exact ⟨hkey, fun cur rest => rfl⟩
          · cases h

end ScanBindData

/-! ## The statement of a partition -/

/-- **The statement is as intended exactly when no name imitates the keyword, or it does not matter.** For any
    arguments of the builder whose extra predicate and order expression are fragments; and for the query of
    any partition, whose extra predicate and order the cursor puts together itself. It does not matter when
    there is no extra predicate, or when a filter is pushed in front of it. -/
theorem partitionQuery_intended_iff (api : DuckdbApi) (filters : List (Nat × TableFilter)) :
    (∀ (a : BuildArgs) (extra : List (List Placed)) (order : List Lexeme),
      ExtraText a.extraPredicate extra → (a.limit.isSome = true → OrderText a.paginationOrderBy order) →
      (Intended api a filters extra order
          { build api a filters with params := (build api a filters).params ++ extra.flatMap constants } ↔
        extra = [] ∨ (∃ entry ∈ filters, a.pushes api entry = true) ∨ ∀ name ∈ a.names, ¬Mentions name)) ∧
    ∀ (bind : ScanBindData) (columnIds : List Nat) (spec : PartitionSpec) (extra : List (List Placed)),
      List.Forall₂ ExtraPredicate.Places bind.extraPredicates extra →
      (Intended api (bind.buildArgs columnIds spec) filters (bind.extraConditions spec extra) bind.orderLexemes
          (bind.partitionQuery api columnIds filters spec) ↔
        (spec.range = none ∧ extra = []) ∨
          (∃ entry ∈ filters, (bind.buildArgs columnIds spec).pushes api entry = true) ∨
          ∀ name ∈ (bind.buildArgs columnIds spec).names, ¬Mentions name) := by
  refine ⟨fun a extra order hextra horder => build_intended_iff hextra horder, ?_⟩
  intro bind columnIds spec extra hplaces
  obtain ⟨htext, hparams⟩ := ScanBindData.extraPredicate_text columnIds spec hplaces
  have hiff := @build_intended_iff api _ filters _ _ htext ScanBindData.pagination_order
  rw [hparams] at hiff
  have hempty : bind.extraConditions spec extra = [] ↔ spec.range = none ∧ extra = [] := by
    unfold ScanBindData.extraConditions
    split_ifs with h
    · exact iff_of_true rfl h
    · exact iff_of_false not_false h
  rw [← hempty]
  exact hiff

/-- A table with a `BOOLEAN` column, whose name contains the keyword; the predicate is `NOT "OPEN"`. -/
def whereTable : ScanBindData where
  columnNames := [utf8 "OPEN"]
  columnDescs := [{ name := utf8 "OPEN", sqltype := .boolean }]
  extraPredicates := [{ sql := utf8 "NOT \"OPEN\"" }]
  tableName := utf8 "THE WHERE TABLE"

/-- The lexemes of its predicate. -/
def notOpen : List Placed := [.inl (keyword "NOT"), .inl (.ident (utf8 "OPEN"))]

theorem partitionQuery_intended_iff_whereTable :
    Intended .v1_5 (whereTable.buildArgs [0] {}) [] (whereTable.extraConditions {} [notOpen]) whereTable.orderLexemes
        (whereTable.partitionQuery .v1_5 [0] [] {}) ↔
      (({} : PartitionSpec).range = none ∧ [notOpen] = []) ∨
        (∃ entry ∈ [], (whereTable.buildArgs [0] {}).pushes .v1_5 entry = true) ∨
        ∀ name ∈ (whereTable.buildArgs [0] {}).names, ¬Mentions name := by
  have hplaces : ExtraPredicate.Places { sql := utf8 "NOT \"OPEN\"" } notOpen :=
    ⟨⟨by decide, by decide, by simp [notOpen, keyword]⟩, rfl⟩
  exact (partitionQuery_intended_iff .v1_5 []).2 whereTable [0] {} [notOpen] (.cons hplaces .nil)

/-- **A name can imitate the keyword**: the table's name has ` WHERE ` in it, and the predicate of the hook is
    written behind it with `AND`. -/
theorem partitionQuery_imitated :
    (whereTable.partitionQuery .v1_5 [0] [] {}).sql =
      utf8 "SELECT \"OPEN\" FROM \"THE WHERE TABLE\" AND ((NOT \"OPEN\"))" ∧
    (pushdownComplexFilter .v1_5 { whereTable.toFirebirdBindData with extraPredicates := [] } [0]
      [.boundOperator .operatorNot [.boundColumnRef 0 ⟨.boolean, 0, 0⟩]]).1.extraPredicates =
        whereTable.extraPredicates ∧
    ¬Intended .v1_5 (whereTable.buildArgs [0] {}) [] [paren [.inl (keyword "NOT"), .inl (.ident (utf8 "OPEN"))]]
      whereTable.orderLexemes (whereTable.partitionQuery .v1_5 [0] [] {}) := by
  refine ⟨by decide, by decide, fun h => ?_⟩
  obtain ⟨ts, hts, hparse, -⟩ := h.parses
  have hlex : lex (whereTable.partitionQuery .v1_5 [0] [] {}).sql =
      some [keyword "SELECT", .ident (utf8 "OPEN"), keyword "FROM", .ident (utf8 "THE WHERE TABLE"), keyword "AND",
        lparen, lparen, keyword "NOT", .ident (utf8 "OPEN"), rparen, rparen] := by decide
  rw [hlex] at hts
  rw [← Option.some.inj hts] at hparse
  cases hparse

end FirebirdScan
