import FirebirdScan.Lib.Tiling
import FirebirdScan.Query.Meaning
import FirebirdScan.Sql
import Mathlib.Data.Rat.Floor
import Mathlib.Tactic.Positivity

/-!
# `Scanner.Partitions` — primary-key ranges (`FirebirdScanInitGlobal`)

A scan of a table with an integer primary key is cut into key ranges, one cursor each. The cuts are
`lo + ⌊(hi - lo + 1) · i / n⌋`; the source computes them in `int64_t`, with the width in `long double`.

Signed overflow has no meaning in the source, so every `int64_t` result goes through `int64`, which is
`none` outside the range, and the width is an exact rational (`truncate` is the cast of the product).
`keyRanges_tile_iff` says when all of it stays in range: when the number of keys does. The ranges then tile
`[lo, hi]`.
-/

namespace FirebirdScan

open SearchCondition

/-! ## The source -/

/-- `PrimaryKeyInfo`, as `ProbePrimaryKey` returns it: two different keys were found. -/
structure PrimaryKeyInfo where
  column : Bytes
  minValue : Int
  maxValue : Int
  min_int64 : -2 ^ 63 ≤ minValue
  min_lt_max : minValue < maxValue
  max_int64 : maxValue < 2 ^ 63
deriving DecidableEq

/-- `partitions_override`: the bind takes it from a nonnegative `int64_t`. `0` asks for the heuristic. -/
structure PartitionsOverride where
  value : Nat
  int64 : value < 2 ^ 63

/-- `MIN_ROWS_PER_PARTITION`. -/
def minRowsPerPartition : Int := 2000000

/-- `PickPartitionCount`; `hw` is `std::thread::hardware_concurrency()`. -/
def pickPartitionCount (hw : UInt32) (minV maxV : Int) : Option Nat := do
  let span ← int64 (maxV - minV)
  let range ← int64 (span + 1)
  if range < minRowsPerPartition * 2 then some 1
  else
    let hw : Int := if hw.toNat ≤ 0 then 4 else hw.toNat
    let byRange := range.tdiv minRowsPerPartition
    some (max 1 (min byRange hw)).toNat

/-- The cast of a `long double` to `int64_t`: the fraction is cut off. -/
def truncate (q : ℚ) : Int := q.num.tdiv q.den

/-- One round of the loop: the bounds of partition `i` of `n`. -/
def keyRange (lo hi : Int) (n : Nat) (width : ℚ) (i : Nat) : Option (Int × Int) := do
  let cut ← int64 (truncate (width * i))
  let partLo ← int64 (lo + cut)
  -- the last partition takes the remainder
  if i = n - 1 then some (partLo, hi)
  else
    let next ← int64 (truncate (width * (i + 1 : Nat)))
    let stop ← int64 (lo + next)
    let partHi ← int64 (stop - 1)
    some (partLo, partHi)

/-- The loop, from round `i` on, with `rounds` to go. -/
def keyRangesFrom (lo hi : Int) (n : Nat) (width : ℚ) : Nat → Nat → Option (List (Int × Int))
  | 0, _ => some []
  | rounds + 1, i => do
      let range ← keyRange lo hi n width i
      let ranges ← keyRangesFrom lo hi n width rounds (i + 1)
      some (range :: ranges)

/-- The override, or the heuristic. -/
def requestedCount (hw : UInt32) (partitions : PartitionsOverride) (lo hi : Int) : Option Nat :=
  if partitions.value > 0 then some partitions.value else pickPartitionCount hw lo hi

/-- The number of partitions: as requested, but no more than there are keys. -/
def partitionCount (hw : UInt32) (partitions : PartitionsOverride) (lo hi : Int) : Option Nat := do
  let n ← requestedCount hw partitions lo hi
  let span ← int64 (hi - lo)
  let rowCapacity ← int64 (span + 1)
  some (if rowCapacity > 0 ∧ (n : Int) > rowCapacity then rowCapacity.toNat else n)

/-- The ranges `FirebirdScanInitGlobal` writes into its partitions; `none` when a result leaves the
    `int64_t` range. -/
def keyRanges (hw : UInt32) (partitions : PartitionsOverride) (pk : PrimaryKeyInfo) :
    Option (List (Int × Int)) := do
  let n ← partitionCount hw partitions pk.minValue pk.maxValue
  let width : ℚ := ((pk.maxValue - pk.minValue + 1 : Int) : ℚ) / n
  keyRangesFrom pk.minValue pk.maxValue n width n 0

/-! ## Arithmetic in range -/

/-- The cast rounds towards zero, which is down for the products here. -/
theorem truncate_eq_floor {q : ℚ} (hq : 0 ≤ q) : truncate q = ⌊q⌋ := by
  rw [truncate, Int.tdiv_eq_ediv_of_nonneg (Rat.num_nonneg.mpr hq), Rat.floor_def']

/-- The `i`-th cut of `keys` keys into `n` parts. -/
theorem truncate_width {keys : Int} {n : Nat} (hkeys : 0 ≤ keys) (i : Nat) :
    truncate (((keys : ℚ) / n) * i) = keys * i / n := by
  have hq : ((keys : ℚ) / n) * i = ((keys * i : Int) : ℚ) / (n : ℚ) := by
    push_cast
    ring
  have hnonneg : (0 : ℚ) ≤ ((keys : ℚ) / n) * i := by
    have hkeys' : (0 : ℚ) ≤ (keys : ℚ) := by exact_mod_cast hkeys
    positivity
  rw [truncate_eq_floor hnonneg, hq]
  exact Rat.floor_intCast_div_natCast _ _

/-! ## The cuts -/

/-- The first key of partition `i` of `n`, when `keys` keys start at `lo`; `cut … n` is one past the end. -/
def cut (lo keys : Int) (n i : Nat) : Int := lo + keys * i / n

theorem cut_zero (lo keys : Int) (n : Nat) : cut lo keys n 0 = lo := by simp [cut]

theorem cut_last {lo keys : Int} {n : Nat} (hn : 0 < n) : cut lo keys n n = lo + keys := by
  have hne : (n : Int) ≠ 0 := by omega
  rw [cut, Int.mul_ediv_cancel _ hne]

/-- With no more partitions than keys, every partition gets a key. -/
theorem cut_lt_cut (lo : Int) {keys : Int} {n : Nat} (hn : 0 < n) (hkeys : (n : Int) ≤ keys) (i : Nat) :
    cut lo keys n i < cut lo keys n (i + 1) := by
  have hne : (n : Int) ≠ 0 := by omega
  have hstep : keys * i / n + 1 ≤ keys * (i + 1 : Nat) / n := by
    calc keys * i / n + 1 = (keys * i + 1 * n) / n := (Int.add_mul_ediv_right _ 1 hne).symm
      _ ≤ keys * (i + 1 : Nat) / n := by
        refine Int.ediv_le_ediv (by omega) ?_
        push_cast
        rw [Int.mul_add, Int.mul_one]
        omega
  unfold cut
  omega

section Loop

variable {lo hi : Int} {n : Nat}

/-- One round of the loop, when the number of keys is in range. -/
theorem keyRange_eq (hlo : -2 ^ 63 ≤ lo) (hhi : hi < 2 ^ 63) (hspan : hi - lo + 1 < 2 ^ 63)
    (hkeys : (n : Int) ≤ hi - lo + 1) {i : Nat} (hi' : i < n) :
    keyRange lo hi n (((hi - lo + 1 : Int) : ℚ) / n) i =
      some (cut lo (hi - lo + 1) n i, cut lo (hi - lo + 1) n (i + 1) - 1) := by
  have hn : 0 < n := by omega
  have hmono {j k : Nat} (hjk : j ≤ k) (hk : k ≤ n) :
      cut lo (hi - lo + 1) n j ≤ cut lo (hi - lo + 1) n k :=
    Tiling.cuts_mono (fun m _ => cut_lt_cut lo hn hkeys m) hjk hk
  have hfirst := hmono (Nat.zero_le i) hi'.le
  have hnext := cut_lt_cut lo hn hkeys i
  have hlast := hmono (show i + 1 ≤ n from hi') (Nat.le_refl n)
  rw [cut_zero] at hfirst
  rw [cut_last hn] at hlast
  -- the three products, as differences of cuts
  have e1 : truncate (((hi - lo + 1 : Int) : ℚ) / n * (i : Nat)) = cut lo (hi - lo + 1) n i - lo := by
    rw [truncate_width (by omega), cut]
    omega
  have e2 : truncate (((hi - lo + 1 : Int) : ℚ) / n * (i + 1 : Nat)) =
      cut lo (hi - lo + 1) n (i + 1) - lo := by
    rw [truncate_width (by omega), cut]
    omega
  have c1 : int64 (cut lo (hi - lo + 1) n i - lo) = some (cut lo (hi - lo + 1) n i - lo) :=
    int64_of_mem (by omega) (by omega)
  have c2 : int64 (lo + (cut lo (hi - lo + 1) n i - lo)) = some (cut lo (hi - lo + 1) n i) := by
    rw [show lo + (cut lo (hi - lo + 1) n i - lo) = cut lo (hi - lo + 1) n i by omega]
    exact int64_of_mem (by omega) (by omega)
  simp only [keyRange, e1, c1, c2, Option.bind_eq_bind, Option.bind_some]
  by_cases hend : i = n - 1
  · have hnn : i + 1 = n := by omega
    rw [if_pos hend, hnn, cut_last hn]
    congr 2
    omega
  · have hinner := cut_lt_cut lo hn hkeys (i + 1)
    have hlast' := hmono (show i + 1 + 1 ≤ n by omega) (Nat.le_refl n)
    rw [cut_last hn] at hlast'
    have c3 : int64 (cut lo (hi - lo + 1) n (i + 1) - lo) =
        some (cut lo (hi - lo + 1) n (i + 1) - lo) := int64_of_mem (by omega) (by omega)
    have c4 : int64 (lo + (cut lo (hi - lo + 1) n (i + 1) - lo)) =
        some (cut lo (hi - lo + 1) n (i + 1)) := by
      rw [show lo + (cut lo (hi - lo + 1) n (i + 1) - lo) = cut lo (hi - lo + 1) n (i + 1) by omega]
      exact int64_of_mem (by omega) (by omega)
    have c5 : int64 (cut lo (hi - lo + 1) n (i + 1) - 1) =
        some (cut lo (hi - lo + 1) n (i + 1) - 1) := int64_of_mem (by omega) (by omega)
    simp only [if_neg hend, e2, c3, c4, c5, Option.bind_some]

/-- The loop collects what its rounds give. -/
theorem keyRangesFrom_eq {width : ℚ} {g : Nat → Int × Int} (rounds : Nat) :
    ∀ {i : Nat}, (∀ j, i ≤ j → j < i + rounds → keyRange lo hi n width j = some (g j)) →
      keyRangesFrom lo hi n width rounds i = some ((List.range' i rounds).map g) := by
  induction rounds with
  | zero => intro i _; rfl
  | succ rounds ih =>
      intro i h
      have hhead := h i (Nat.le_refl i) (by omega)
      have htail := ih (i := i + 1) fun j hj hj' => h j (by omega) (by omega)
      simp [keyRangesFrom, hhead, htail, List.range'_succ]

end Loop

/-! ## The partition count -/

theorem pickPartitionCount_pos {hw : UInt32} {lo hi : Int} {n : Nat}
    (h : pickPartitionCount hw lo hi = some n) : 0 < n := by
  simp only [pickPartitionCount, Option.bind_eq_bind] at h
  obtain ⟨span, -, h⟩ := Option.bind_eq_some_iff.mp h
  obtain ⟨range, -, h⟩ := Option.bind_eq_some_iff.mp h
  split_ifs at h
  · obtain rfl := Option.some.inj h
    omega
  all_goals
    obtain rfl := Option.some.inj h
    omega

/-- The count is computed exactly when the number of keys is an `int64_t`; then there is at least one
    partition and no more than keys. -/
theorem partitionCount_eq_some (hw : UInt32) (partitions : PartitionsOverride) {pk : PrimaryKeyInfo} :
    (pk.maxValue - pk.minValue + 1 < 2 ^ 63 →
      ∃ n, partitionCount hw partitions pk.minValue pk.maxValue = some n ∧ 0 < n ∧
        (n : Int) ≤ pk.maxValue - pk.minValue + 1) ∧
    ∀ n, partitionCount hw partitions pk.minValue pk.maxValue = some n →
      pk.maxValue - pk.minValue + 1 < 2 ^ 63 := by
  have hpos := pk.min_lt_max
  constructor
  · intro hspan
    have h1 : int64 (pk.maxValue - pk.minValue) = some (pk.maxValue - pk.minValue) :=
      int64_of_mem (by omega) (by omega)
    have h2 : int64 (pk.maxValue - pk.minValue + 1) = some (pk.maxValue - pk.minValue + 1) :=
      int64_of_mem (by omega) hspan
    obtain ⟨n, hn, hn0⟩ : ∃ n, requestedCount hw partitions pk.minValue pk.maxValue = some n ∧ 0 < n := by
      unfold requestedCount
      split_ifs with hov
      · exact ⟨_, rfl, hov⟩
      · obtain ⟨n, hn⟩ : ∃ n, pickPartitionCount hw pk.minValue pk.maxValue = some n := by
          simp only [pickPartitionCount, h1, h2, Option.bind_eq_bind, Option.bind_some]
          split_ifs <;> exact ⟨_, rfl⟩
        exact ⟨n, hn, pickPartitionCount_pos hn⟩
    simp only [partitionCount, hn, h1, h2, Option.bind_eq_bind, Option.bind_some]
    refine ⟨_, rfl, ?_, ?_⟩ <;> split_ifs <;> omega
  · intro n h
    simp only [partitionCount, Option.bind_eq_bind] at h
    obtain ⟨_, -, h⟩ := Option.bind_eq_some_iff.mp h
    obtain ⟨span, hs, h⟩ := Option.bind_eq_some_iff.mp h
    obtain ⟨capacity, hc, -⟩ := Option.bind_eq_some_iff.mp h
    obtain ⟨rfl, -⟩ := int64_eq_some.mp hs
    exact (int64_eq_some.mp hc).2.2

/-! ## The ranges tile -/

/-- There are ranges only if the number of keys is an `int64_t`. -/
theorem keyRanges_span {hw : UInt32} {partitions : PartitionsOverride} {pk : PrimaryKeyInfo}
    {ranges : List (Int × Int)} (h : keyRanges hw partitions pk = some ranges) :
    pk.maxValue - pk.minValue + 1 < 2 ^ 63 := by
  obtain ⟨n, hn, -⟩ := Option.bind_eq_some_iff.mp h
  exact (partitionCount_eq_some hw partitions).2 n hn

/-- Then the ranges are the cells between the cuts. -/
theorem keyRanges_tiles (hw : UInt32) (partitions : PartitionsOverride) {pk : PrimaryKeyInfo}
    (hspan : pk.maxValue - pk.minValue + 1 < 2 ^ 63) :
    ∃ ranges, keyRanges hw partitions pk = some ranges ∧
      Tiling.Tiles pk.minValue pk.maxValue ranges := by
  obtain ⟨n, hn, hn0, hkeys⟩ := (partitionCount_eq_some hw partitions).1 hspan
  have hloop := keyRangesFrom_eq n (i := 0) fun j _ hj =>
    keyRange_eq pk.min_int64 pk.max_int64 hspan hkeys (show j < n by omega)
  refine ⟨Tiling.cells (cut pk.minValue (pk.maxValue - pk.minValue + 1) n) n, ?_, ?_⟩
  · rw [← List.range_eq_range'] at hloop
    simp only [keyRanges, hn, Option.bind_eq_bind, Option.bind_some]
    exact hloop
  · have htiles := Tiling.tiles_cells hn0 fun i _ => cut_lt_cut pk.minValue hn0 hkeys i
    rw [cut_zero, cut_last hn0] at htiles
    rwa [show pk.minValue + (pk.maxValue - pk.minValue + 1) - 1 = pk.maxValue by omega] at htiles

/-- **The ranges tile the key range exactly when the number of keys is an `int64_t`.** Then no intermediate
    result overflows, and the ranges are nonempty, disjoint and increasing, start at the smallest key, end at
    the largest and leave no gap. -/
theorem keyRanges_tile_iff (hw : UInt32) (partitions : PartitionsOverride) (pk : PrimaryKeyInfo) :
    (∃ ranges, keyRanges hw partitions pk = some ranges ∧
      Tiling.Tiles pk.minValue pk.maxValue ranges) ↔
      pk.maxValue - pk.minValue + 1 < 2 ^ 63 := by
  constructor
  · rintro ⟨ranges, h, -⟩
    exact keyRanges_span h
  · exact keyRanges_tiles hw partitions

/-- The keys `0 … INT64_MAX`. -/
def halfLine : PrimaryKeyInfo where
  column := utf8 "ID"
  minValue := 0
  maxValue := 2 ^ 63 - 1
  min_int64 := by decide
  min_lt_max := by decide
  max_int64 := by decide

/-- **The `long double` protects the product only**: on the keys `0 … INT64_MAX` the `+ 1` overflows, with
    any override, so there are no ranges at all. -/
theorem keyRanges_halfLine_overflows :
    keyRanges 8 ⟨4, by decide⟩ halfLine = none ∧
    ¬∃ ranges, keyRanges 8 ⟨4, by decide⟩ halfLine = some ranges ∧
      Tiling.Tiles halfLine.minValue halfLine.maxValue ranges := by
  have hnone : keyRanges 8 ⟨4, by decide⟩ halfLine = none := by decide
  exact ⟨hnone, fun ⟨ranges, h, _⟩ => by simp [hnone] at h⟩

/-! ## The partition predicate -/

/-- `PartitionSpec`: the key range of its `where_clause`, or `none` for the empty clause. -/
structure PartitionSpec where
  range : Option (Int × Int) := none

/-- `where_clause`, for the quoted key column. -/
def PartitionSpec.whereClause (pk : Bytes) (spec : PartitionSpec) : Bytes :=
  match spec.range with
  | none => []
  | some (lo, hi) =>
      pk ++ utf8 " >= " ++ utf8 (toString lo) ++ utf8 " AND " ++ pk ++ utf8 " <= " ++ utf8 (toString hi)

/-- The keys a partition's cursor delivers. -/
def PartitionSpec.Selects (spec : PartitionSpec) (key : Int) : Prop :=
  match spec.range with
  | none => True
  | some (lo, hi) => lo ≤ key ∧ key ≤ hi

/-- The partition queue of a scan. -/
def initPartitions (hw : UInt32) (partitions : PartitionsOverride) :
    Option PrimaryKeyInfo → Option (List PartitionSpec)
  | none => some [{}]
  | some pk => (keyRanges hw partitions pk).map fun ranges => ranges.map fun r => ⟨some r⟩

/-- The tokens of one half of the predicate. -/
def boundTokens (op : CompareOp) (bound : Int) : List (Token Unit Value) :=
  [.operand (.column ()), .blank, .op op, .blank, .operand (.literal (.bigint (Int64.ofInt bound)))]

theorem says_bound {S : Server} (op : CompareOp) (bound : Int) :
    Says S.algebra .primary (boundTokens op bound) []
      (fun row => S.algebra.test op (row ()) (Value.bigint (Int64.ofInt bound))) := by
  refine ⟨.compare (.column ()) op (.literal (.bigint (Int64.ofInt bound))), ?_, fun row rest => rfl⟩
  exact Phrase.compare _ _ _

/-- **The `where_clause` selects its range**: a server that compares integers as integers reads the text as
    a condition that is true on the keys from `lo` to `hi`. -/
theorem whereClause_selects {S : Server} (pk : Bytes)
    (hS : ∀ op (a b : Int64), S.compare op (.bigint a) (.bigint b) = op.holds a.toInt b.toInt)
    {lo hi : Int} (hlo : -2 ^ 63 ≤ lo) (hlohi : lo ≤ hi) (hhi : hi < 2 ^ 63) :
    ∃ lexemes cond, PartitionSpec.whereClause pk ⟨some (lo, hi)⟩ = render (fun _ : Unit => pk) lexemes ∧
      read lexemes = some cond ∧
      ∀ key : Int64, cond.eval S.algebra (fun _ => .bigint key) [] = some (.true, []) ↔
        PartitionSpec.Selects ⟨some (lo, hi)⟩ key.toInt := by
  have hsays := (says_bound (S := S) .ge lo).cons .and ((says_bound (S := S) .le hi).single .and)
  obtain ⟨cond, hread, heval⟩ := hsays.whole.read
  refine ⟨_, cond, ?_, hread, fun key => ?_⟩
  · have h1 : utf8 " >= " = utf8 " " ++ (utf8 ">=" ++ utf8 " ") := by decide
    have h2 : utf8 " <= " = utf8 " " ++ (utf8 "<=" ++ utf8 " ") := by decide
    have h3 : utf8 " AND " = utf8 " " ++ (utf8 "AND" ++ utf8 " ") := by decide
    have e1 := Int64.toInt_ofInt_of_le hlo (by omega)
    have e2 := Int64.toInt_ofInt_of_le (show -2 ^ 63 ≤ hi by omega) hhi
    simp [PartitionSpec.whereClause, boundTokens, tokenText, literalText, opText, h1, h2, h3, e1, e2]
  · rw [List.append_nil] at heval
    have e1 := Int64.toInt_ofInt_of_le hlo (show lo < 2 ^ 63 by omega)
    have e2 := Int64.toInt_ofInt_of_le (show -2 ^ 63 ≤ hi by omega) hhi
    rw [heval]
    simp [Connective.apply, Algebra.test, Server.algebra, Value.isNull, hS, e1, e2, CompareOp.holds,
      PartitionSpec.Selects]

end FirebirdScan
