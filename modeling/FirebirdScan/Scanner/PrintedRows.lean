import FirebirdScan.Scanner.Paging

/-!
# `Scanner.PrintedRows` — the operands of `ROWS`

`row_limit` and `row_offset` are `BIGINT`s, the builder adds them as `idx_t`s, and Firebird reads the sum as a
signed 64-bit number again. The guard of the bind compares the sum with the largest `idx_t`, which two
nonnegative `BIGINT`s never exceed (`sliceOverflows_eq_false`): it rejects nothing.

`printedRows` reads the two row numbers off the end of the statement. They are the slice exactly when its last
row has a number that Firebird can read (`printedRows_valid_iff`).
-/

namespace FirebirdScan

open SqlText SqlText.Select

/-! ## The row numbers of a statement -/

def isDecimalDigit (b : UInt8) : Bool := 0x30 ≤ b && b ≤ 0x39

/-- The number that a text ends with, and what stands before it; both texts are reversed. -/
def lastNumber (s : Bytes) : Option (Nat × Bytes) :=
  if s.takeWhile isDecimalDigit = [] then none
  else (numeral (.word (s.takeWhile isDecimalDigit).reverse)).map fun n => (n, s.dropWhile isDecimalDigit)

/-- The first and the last row that a statement asks for: `ROWS n` is `ROWS 1 TO n`. -/
def printedRows (sql : Bytes) : Option (Nat × Nat) := do
  let (last, front) ← lastNumber sql.reverse
  if (utf8 " ROWS ").reverse.isPrefixOf front then some (1, last)
  else if (utf8 " TO ").reverse.isPrefixOf front then
    let (first, front) ← lastNumber (front.drop (utf8 " TO ").length)
    if (utf8 " ROWS ").reverse.isPrefixOf front then some (first, last) else none
  else none

/-- The rows `first … last` are the slice, as Firebird's signed operands can say it, and neither sum of the
    builder wraps around. -/
structure ValidRows (rowLimit rowOffset : Int64) (first last : Nat) : Prop where
  first_pos : 1 ≤ first
  first_le_last : first ≤ last
  last_le : last ≤ 2 ^ 63 - 1
  count : (last : Int) - first + 1 = rowLimit.toInt
  start : (first : Int) = rowOffset.toInt + 1
  first_unwrapped : (rowOffset.toUInt64 + 1).toNat = rowOffset.toUInt64.toNat + 1
  last_unwrapped : (rowOffset.toUInt64 + rowLimit.toUInt64).toNat =
    rowOffset.toUInt64.toNat + rowLimit.toUInt64.toNat

/-! ## Reading back what is printed -/

theorem numeral_word_digits {s : Bytes} {n : Nat} (h : numeral (.word s) = some n) :
    ∀ b ∈ s, isDecimalDigit b = true := by
  unfold numeral at h
  dsimp only at h
  split_ifs at h with hall
  intro b hb
  exact List.all_eq_true.mp hall b hb

theorem idxText_ne_nil (n : UInt64) : idxText n ≠ [] := by
  intro h
  have hzero : numeral (.word (idxText n)) = some n.toNat := numeral_digits n.toNat
  rw [h] at hzero
  have hn : n = 0 := UInt64.toNat_inj.mp (Option.some.inj hzero).symm
  rw [hn] at h
  exact absurd h (by decide)

/-- A number is read off the end of a text whose front does not end with a digit. -/
theorem lastNumber_idxText (n : UInt64) {b : UInt8} (hb : isDecimalDigit b = false) (front : Bytes) :
    lastNumber ((idxText n).reverse ++ b :: front) = some (n.toNat, b :: front) := by
  have hnumeral : numeral (.word (idxText n)) = some n.toNat := numeral_digits n.toNat
  have hdigits : ∀ c ∈ (idxText n).reverse, isDecimalDigit c = true := by
    intro c hc
    exact numeral_word_digits hnumeral c (List.mem_reverse.mp hc)
  have hstop : ¬isDecimalDigit b = true := by
    rw [hb]
    exact Bool.false_ne_true
  have htake : ((idxText n).reverse ++ b :: front).takeWhile isDecimalDigit = (idxText n).reverse := by
    rw [List.takeWhile_append_of_pos hdigits, List.takeWhile_cons_of_neg hstop, List.append_nil]
  have hdrop : ((idxText n).reverse ++ b :: front).dropWhile isDecimalDigit = b :: front := by
    rw [List.dropWhile_append_of_pos hdigits, List.dropWhile_cons_of_neg hstop]
  have hne : ¬(idxText n).reverse = [] := fun h => idxText_ne_nil n (List.reverse_eq_nil_iff.mp h)
  unfold lastNumber
  rw [htake, hdrop, if_neg hne, List.reverse_reverse, hnumeral]
  rfl

theorem printedRows_rows (front : Bytes) (n : UInt64) :
    printedRows (front ++ (utf8 " ROWS " ++ idxText n)) = some (1, n.toNat) := by
  have hreverse : (front ++ (utf8 " ROWS " ++ idxText n)).reverse =
      (idxText n).reverse ++ ((utf8 " ROWS ").reverse ++ front.reverse) := by
    rw [List.reverse_append, List.reverse_append, List.append_assoc]
  have hlast : lastNumber ((idxText n).reverse ++ ((utf8 " ROWS ").reverse ++ front.reverse)) =
      some (n.toNat, (utf8 " ROWS ").reverse ++ front.reverse) :=
    lastNumber_idxText n (b := 0x20) (by decide) _
  unfold printedRows
  rw [hreverse, hlast, Option.bind_eq_bind, Option.bind_some]
  exact if_pos (List.isPrefixOf_iff_prefix.mpr (List.prefix_append _ _))

theorem printedRows_rowsTo (front : Bytes) (m n : UInt64) :
    printedRows (front ++ (utf8 " ROWS " ++ idxText m ++ utf8 " TO " ++ idxText n)) = some (m.toNat, n.toNat) := by
  have hreverse : (front ++ (utf8 " ROWS " ++ idxText m ++ utf8 " TO " ++ idxText n)).reverse =
      (idxText n).reverse ++
        ((utf8 " TO ").reverse ++ ((idxText m).reverse ++ ((utf8 " ROWS ").reverse ++ front.reverse))) := by
    simp only [List.reverse_append, List.append_assoc]
  have hlast : lastNumber ((idxText n).reverse ++
        ((utf8 " TO ").reverse ++ ((idxText m).reverse ++ ((utf8 " ROWS ").reverse ++ front.reverse)))) =
      some (n.toNat, (utf8 " TO ").reverse ++ ((idxText m).reverse ++ ((utf8 " ROWS ").reverse ++ front.reverse))) :=
    lastNumber_idxText n (b := 0x20) (by decide) _
  have hfirst : lastNumber ((idxText m).reverse ++ ((utf8 " ROWS ").reverse ++ front.reverse)) =
      some (m.toNat, (utf8 " ROWS ").reverse ++ front.reverse) :=
    lastNumber_idxText m (b := 0x20) (by decide) _
  unfold printedRows
  rw [hreverse, hlast, Option.bind_eq_bind, Option.bind_some, ← @List.length_reverse _ (utf8 " TO ")]
  -- the word in front of the last number is `TO`
  have hrows : ¬(utf8 " ROWS ").reverse.isPrefixOf
      ((utf8 " TO ").reverse ++ ((idxText m).reverse ++ ((utf8 " ROWS ").reverse ++ front.reverse))) = true :=
    Bool.false_ne_true
  have hto : (utf8 " TO ").reverse.isPrefixOf
      ((utf8 " TO ").reverse ++ ((idxText m).reverse ++ ((utf8 " ROWS ").reverse ++ front.reverse))) = true :=
    List.isPrefixOf_iff_prefix.mpr (List.prefix_append _ _)
  dsimp only
  rw [if_neg hrows, if_pos hto, List.drop_left, hfirst, Option.bind_some]
  exact if_pos (List.isPrefixOf_iff_prefix.mpr (List.prefix_append _ _))

/-! ## The guard -/

/-- **The guard rejects nothing**: two nonnegative `BIGINT`s have a sum that fits an `idx_t`. -/
theorem sliceOverflows_eq_false {rowLimit rowOffset : Option Int64} {limit offset : Option UInt64}
    (hlimit : bindRowLimit rowLimit = .ok limit) (hoffset : bindRowOffset rowOffset = .ok offset) :
    sliceOverflows limit offset = false := by
  obtain ⟨rfl, hnonneg⟩ := bindRowOffset_ok hoffset
  rcases rowLimit with _ | l
  · obtain rfl := Except.ok.inj hlimit
    rfl
  obtain ⟨rfl, hl⟩ := bindRowLimit_ok hlimit
  rcases rowOffset with _ | o
  · rfl
  have hlNat : l.toUInt64.toNat < 2 ^ 63 := by
    rw [Int64.toNat_toUInt64_of_le hl]
    exact l.toNatClampNeg_lt
  have hoNat : o.toUInt64.toNat < 2 ^ 63 := by
    rw [Int64.toNat_toUInt64_of_le (hnonneg o rfl)]
    exact o.toNatClampNeg_lt
  have hmax : (18446744073709551615 : UInt64).toNat = 18446744073709551615 := UInt64.toNat_ofNat_of_lt (by decide)
  have hroom : (18446744073709551615 - l.toUInt64).toNat = 18446744073709551615 - l.toUInt64.toNat := by
    rw [UInt64.toNat_sub_of_le, hmax]
    rw [UInt64.le_iff_toNat_le, hmax]
    omega
  unfold sliceOverflows
  rw [Option.map_some, Option.any_some, Option.any_some, decide_eq_false_iff_not, gt_iff_lt, UInt64.lt_iff_toNat_lt,
    hroom]
  omega

/-! ## The printed rows -/

section Printed

variable {partitions rowOffset : Option Int64} {rowLimit : Int64} {paging : PagingArguments} {bind : ScanBindData}

/-- Where a limit is pushed, it is the one of the bind, and so is the offset. -/
theorem pagination_pushed (hpush : bind.pagination.limitToPush.isSome = true) :
    bind.pagination.limitToPush = bind.limitOverride ∧ bind.pagination.offsetToPush = bind.offsetOverride := by
  unfold ScanBindData.pagination at hpush ⊢
  cases hlimit : bind.limitOverride with
  | none => exact ⟨rfl, rfl⟩
  | some limit =>
      simp only [hlimit] at hpush ⊢
      cases hpk : bind.pk with
      | some pk => exact ⟨rfl, rfl⟩
      | none =>
          simp only [hpk] at hpush ⊢
          split_ifs at hpush ⊢
          · exact ⟨rfl, rfl⟩
          · cases hpush

/-- The rows that are printed for an accepted slice. -/
theorem printedRows_paged (hbind : bindPaging partitions (some rowLimit) rowOffset = .ok paging) {api : DuckdbApi}
    {columnIds : List Nat} {filters : List (Nat × TableFilter)} {spec : PartitionSpec}
    (hpush : (bind.paged paging).pagination.limitToPush.isSome = true) :
    printedRows ((bind.paged paging).partitionQuery api columnIds filters spec).sql =
      some (rowOffset.elim (1, rowLimit.toUInt64.toNat) fun o =>
        ((o.toUInt64 + 1).toNat, (o.toUInt64 + rowLimit.toUInt64).toNat)) := by
  obtain ⟨-, hlimit, hoffset, -, -⟩ := bindPaging_ok hbind
  obtain ⟨hpushed, hoff⟩ := pagination_pushed hpush
  have hsql := @sql_sliced (bind.paged paging) api columnIds filters spec rowLimit.toUInt64 (hpushed.trans hlimit)
  have hpaged : (bind.paged paging).offsetOverride = rowOffset.map Int64.toUInt64 := hoffset
  rw [hsql, hoff, hpaged]
  cases rowOffset with
  | none => exact printedRows_rows _ _
  | some o => exact printedRows_rowsTo _ _ _

/-- An accepted limit is positive. -/
theorem bindPaging_limit_pos (hbind : bindPaging partitions (some rowLimit) rowOffset = .ok paging) :
    0 < rowLimit := by
  apply Int64.not_le.mp
  intro hle
  have hlimit : bindRowLimit (some rowLimit) = .error "row_limit must be > 0" := if_pos hle
  unfold bindPaging at hbind
  cases hpart : bindPartitions partitions with
  | error e =>
      rw [hpart] at hbind
      cases hbind
  | ok p =>
      rw [hpart, hlimit] at hbind
      cases hbind

/-- The printed numbers are the slice if its last row is a signed number. -/
theorem validRows_iff {o : Int64} (hlimit : 0 < rowLimit) (hoffset : 0 ≤ o) :
    ValidRows rowLimit o (o.toUInt64 + 1).toNat (o.toUInt64 + rowLimit.toUInt64).toNat ↔
      o.toInt + rowLimit.toInt ≤ 2 ^ 63 - 1 := by
  have hl : (rowLimit.toUInt64.toNat : Int) = rowLimit.toInt := by
    rw [Int64.toNat_toUInt64_of_le (Int64.le_of_lt hlimit)]
    exact Int.toNat_of_nonneg (Int64.le_iff_toInt_le.mp (Int64.le_of_lt hlimit))
  have ho : (o.toUInt64.toNat : Int) = o.toInt := by
    rw [Int64.toNat_toUInt64_of_le hoffset]
    exact Int.toNat_of_nonneg (Int64.le_iff_toInt_le.mp hoffset)
  have hpos : 0 < rowLimit.toInt := Int64.lt_iff_toInt_lt.mp hlimit
  have hlmax := rowLimit.toInt_lt
  have homax := o.toInt_lt
  have hfirst : (o.toUInt64 + 1).toNat = o.toUInt64.toNat + 1 := by
    rw [UInt64.toNat_add, UInt64.toNat_one]
    omega
  have hlast : (o.toUInt64 + rowLimit.toUInt64).toNat = o.toUInt64.toNat + rowLimit.toUInt64.toNat := by
    rw [UInt64.toNat_add]
    omega
  constructor
  · intro hvalid
    have hle := hvalid.last_le
    rw [hlast] at hle
    omega
  · intro hsum
    refine ⟨?_, ?_, ?_, ?_, ?_, hfirst, hlast⟩ <;> omega

end Printed

/-- **The printed rows are the slice exactly when its last row is a signed number.** Whatever pair the bind accepts:
    where `Build` prints `ROWS`, the two numbers are the first and the last row of the slice, and operands that
    Firebird can read, if `row_offset + row_limit` is at most the largest `BIGINT`; otherwise they are not, and
    the bind accepts the pair all the same. -/
theorem printedRows_valid_iff {partitions rowOffset : Option Int64} {rowLimit : Int64} {paging : PagingArguments}
    (hbind : bindPaging partitions (some rowLimit) rowOffset = .ok paging) (bind : ScanBindData) (api : DuckdbApi)
    (columnIds : List Nat) (filters : List (Nat × TableFilter)) (spec : PartitionSpec)
    (hpush : (bind.paged paging).pagination.limitToPush.isSome = true) :
    (∃ first last,
      printedRows ((bind.paged paging).partitionQuery api columnIds filters spec).sql = some (first, last) ∧
        ValidRows rowLimit (rowOffset.getD 0) first last) ↔
      (rowOffset.getD 0).toInt + rowLimit.toInt ≤ 2 ^ 63 - 1 := by
  have hprinted := @printedRows_paged partitions rowOffset rowLimit paging bind hbind api columnIds filters spec hpush
  have hnumbers : printedRows ((bind.paged paging).partitionQuery api columnIds filters spec).sql =
      some (((rowOffset.getD 0).toUInt64 + 1).toNat, ((rowOffset.getD 0).toUInt64 + rowLimit.toUInt64).toNat) := by
    rw [hprinted]
    cases rowOffset with
    | none =>
        have hzero : (0 : Int64).toUInt64 = 0 := rfl
        show some (1, rowLimit.toUInt64.toNat) = some (((0 : Int64).toUInt64 + 1).toNat, _)
        rw [Option.getD_none, hzero, UInt64.zero_add, UInt64.zero_add]
        rfl
    | some o => rfl
  have hoffset : 0 ≤ rowOffset.getD 0 := by
    cases rowOffset with
    | none => exact Int64.le_refl 0
    | some o => exact (bindPaging_ok hbind).2.2.2.2 o rfl
  rw [← validRows_iff (bindPaging_limit_pos hbind) hoffset, hnumbers]
  constructor
  · rintro ⟨first, last, hpair, hvalid⟩
    obtain ⟨rfl, rfl⟩ := Prod.mk.inj (Option.some.inj hpair)
    exact hvalid
  · intro hvalid
    exact ⟨_, _, rfl, hvalid⟩

/-- A base table of one column, without a numeric primary key. -/
def keylessTable : ScanBindData where
  columnNames := [utf8 "N"]
  columnDescs := [{ name := utf8 "N", sqltype := .long }]
  tableName := utf8 "T"

/-- The largest limit, behind an offset of one row. -/
def allButTheFirst : PagingArguments where
  partitionsOverride := .serial
  limitOverride := some 9223372036854775807
  offsetOverride := some 1

theorem printedRows_valid_second :
    ∃ first last,
      printedRows ((keylessTable.paged secondAndThird).partitionQuery .v1_5 [0] [] {}).sql = some (first, last) ∧
        ValidRows 2 1 first last :=
  (@printedRows_valid_iff none (some 1) 2 secondAndThird rfl keylessTable .v1_5 [0] [] {} rfl).mpr (by decide)

/-- **The end of an accepted slice is no signed number**: row `2` to row `2^63`. -/
theorem bindPaging_accepts_unprintable :
    bindPaging none (some 9223372036854775807) (some 1) = .ok allButTheFirst ∧
      printedRows ((keylessTable.paged allButTheFirst).partitionQuery .v1_5 [0] [] {}).sql =
        some (2, 9223372036854775808) ∧
      ¬∃ first last,
        printedRows ((keylessTable.paged allButTheFirst).partitionQuery .v1_5 [0] [] {}).sql = some (first, last) ∧
          ValidRows 9223372036854775807 1 first last := by
  have hprinted : printedRows ((keylessTable.paged allButTheFirst).partitionQuery .v1_5 [0] [] {}).sql =
      some (2, 9223372036854775808) := by decide
  refine ⟨by rfl, hprinted, ?_⟩
  rintro ⟨first, last, hpair, hvalid⟩
  obtain ⟨-, rfl⟩ := Prod.mk.inj (Option.some.inj (hprinted.symm.trans hpair))
  exact absurd hvalid.last_le (by decide)

end FirebirdScan
