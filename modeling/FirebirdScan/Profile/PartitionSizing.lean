import FirebirdScan.Profile.TableProfile

/-!
# `Profile.PartitionSizing` — partitions and rows from one key range

The scanner and the profile take the width of the key range for the number of rows: `PickPartitionCount` divides it
among the partitions, and `BuildProfile` reports it. Both compute it in `int64_t`, where a range that covers half of
the `BIGINT`s has no width.

Below that both are exact (`partitionSizing_iff`).
-/

namespace FirebirdScan

/-! ## What the sizes should be -/

/-- The hardware concurrency, `0` read as `4`. -/
def concurrency (hw : UInt32) : Nat := if hw.toNat = 0 then 4 else hw.toNat

/-- The partitions of a range of `width` keys. -/
def partitionsFor (h : Nat) (width : Int) : Nat := if width < 4000000 then 1 else min (width / 2000000).toNat h

theorem concurrency_pos (hw : UInt32) : 0 < concurrency hw := by
  unfold concurrency
  split_ifs with h
  · decide
  · exact Nat.pos_of_ne_zero h

theorem partitionsFor_pos {h : Nat} (hpos : 0 < h) (width : Int) : 1 ≤ partitionsFor h width := by
  unfold partitionsFor
  split_ifs <;> omega

theorem partitionsFor_le (h : Nat) (width : Int) : partitionsFor h width ≤ max 1 h := by
  unfold partitionsFor
  split_ifs <;> omega

/-- A wider range has no fewer partitions. -/
theorem partitionsFor_mono {h : Nat} (hpos : 0 < h) {width width' : Int} (hle : width' ≤ width) :
    partitionsFor h width' ≤ partitionsFor h width := by
  have hdiv : width' / 2000000 ≤ width / 2000000 := Int.ediv_le_ediv (by decide) hle
  unfold partitionsFor
  split_ifs <;> omega

/-- The sizes of a key range are as they should be: the partitions, for it and for every range within it, and the
    row estimate that the profile shows. -/
structure SizedExactly (hw : UInt32) (pk : PrimaryKeyInfo) : Prop where
  partitions : pickPartitionCount hw pk.minValue pk.maxValue =
    some (partitionsFor (concurrency hw) (pk.maxValue - pk.minValue + 1))
  pos : 1 ≤ partitionsFor (concurrency hw) (pk.maxValue - pk.minValue + 1)
  le : partitionsFor (concurrency hw) (pk.maxValue - pk.minValue + 1) ≤ max 1 (concurrency hw)
  mono : ∀ lo hi, pk.minValue ≤ lo → lo < hi → hi ≤ pk.maxValue →
    ∃ n, pickPartitionCount hw lo hi = some n ∧ n ≤ partitionsFor (concurrency hw) (pk.maxValue - pk.minValue + 1)
  estimate : rangeEstimate pk.minValue pk.maxValue = some (pk.maxValue - pk.minValue + 1)
  two_le : 2 ≤ pk.maxValue - pk.minValue + 1
  emitted : ∀ p, ∃ p' rows, profileRange hw pk p = .ok p' ∧ p'.emittedRows = some rows ∧
    rows.toInt = pk.maxValue - pk.minValue + 1

/-! ## In range -/

section Range

variable {hw : UInt32} {lo hi : Int}

/-- `PickPartitionCount`, where the width is an `int64_t`. -/
theorem pickPartitionCount_eq (hlt : lo < hi) (hwidth : hi - lo + 1 < 2 ^ 63) :
    pickPartitionCount hw lo hi = some (partitionsFor (concurrency hw) (hi - lo + 1)) := by
  have hspan : int64 (hi - lo) = some (hi - lo) := int64_of_mem (by omega) (by omega)
  have hrange : int64 (hi - lo + 1) = some (hi - lo + 1) := int64_of_mem (by omega) hwidth
  have hpos := concurrency_pos hw
  unfold pickPartitionCount partitionsFor
  rw [hspan, Option.bind_eq_bind, Option.bind_some, hrange, Option.bind_some]
  by_cases hsmall : hi - lo + 1 < 4000000
  · rw [if_pos hsmall]
    exact if_pos hsmall
  · rw [if_neg hsmall]
    refine (if_neg hsmall).trans (congrArg some ?_)
    -- at least four million keys are at least two shares
    have hshares : 2 ≤ (hi - lo + 1) / 2000000 := by omega
    have hdiv : (hi - lo + 1).tdiv minRowsPerPartition = (hi - lo + 1) / 2000000 :=
      Int.tdiv_eq_ediv_of_nonneg (by omega)
    have hhw : (if hw.toNat ≤ 0 then 4 else (hw.toNat : Int)) = concurrency hw := by
      unfold concurrency
      split_ifs <;> omega
    rw [hdiv, hhw]
    omega

/-- The estimate, where the width is an `int64_t`. -/
theorem rangeEstimate_eq (hlt : lo < hi) (hwidth : hi - lo + 1 < 2 ^ 63) :
    rangeEstimate lo hi = some (hi - lo + 1) := by
  have hspan : int64 (hi - lo) = some (hi - lo) := int64_of_mem (by omega) (by omega)
  have hrange : int64 (hi - lo + 1) = some (hi - lo + 1) := int64_of_mem (by omega) hwidth
  unfold rangeEstimate
  rw [hspan, Option.bind_eq_bind, Option.bind_some]
  exact hrange

/-- There is an estimate only where the width is an `int64_t`. -/
theorem rangeEstimate_width {estimate : Int} (h : rangeEstimate lo hi = some estimate) : hi - lo + 1 < 2 ^ 63 := by
  obtain ⟨span, hspan, hrange⟩ := Option.bind_eq_some_iff.mp h
  obtain ⟨rfl, -⟩ := int64_eq_some.mp hspan
  exact (int64_eq_some.mp hrange).2.2

end Range

/-- The profile of a base table with a key range, where the width is an `int64_t`. -/
theorem profileRange_eq (hw : UInt32) {pk : PrimaryKeyInfo} (hwidth : pk.maxValue - pk.minValue + 1 < 2 ^ 63)
    (p : TableProfile) :
    ∃ p', profileRange hw pk p = .ok p' ∧
      p'.estimatedRows = Int64.ofInt (pk.maxValue - pk.minValue + 1) := by
  unfold profileRange
  rw [pickPartitionCount_eq pk.min_lt_max hwidth, rangeEstimate_eq pk.min_lt_max hwidth]
  dsimp only
  split_ifs
  · exact ⟨_, rfl, rfl⟩
  · exact ⟨_, rfl, rfl⟩

/-- **The sizes of a key range are exact if and only if its width is an `int64_t`.** Then no intermediate result
    overflows; the partitions are one for each two million keys, between one and the concurrency, and no fewer than
    those of a narrower range; and the row estimate is the width, which is never shown as `NULL`. -/
theorem partitionSizing_iff (hw : UInt32) (pk : PrimaryKeyInfo) :
    SizedExactly hw pk ↔ pk.maxValue - pk.minValue + 1 < 2 ^ 63 := by
  have hlt := pk.min_lt_max
  constructor
  · intro hsized
    exact rangeEstimate_width hsized.estimate
  · intro hwidth
    have hpos := concurrency_pos hw
    refine
      { partitions := pickPartitionCount_eq hlt hwidth
        pos := partitionsFor_pos hpos _
        le := partitionsFor_le _ _
        mono := ?_
        estimate := rangeEstimate_eq hlt hwidth
        two_le := by omega
        emitted := ?_ }
    · intro lo hi hlo hlohi hhi
      refine ⟨_, pickPartitionCount_eq hlohi (by omega), partitionsFor_mono hpos ?_⟩
      omega
    · intro p
      obtain ⟨p', hp', hrows⟩ := profileRange_eq hw hwidth p
      have hto : p'.estimatedRows.toInt = pk.maxValue - pk.minValue + 1 := by
        rw [hrows]
        exact Int64.toInt_ofInt_of_le (by omega) hwidth
      refine ⟨p', p'.estimatedRows, hp', if_neg ?_, hto⟩
      rw [Int64.lt_iff_toInt_lt, hto, Int64.toInt_zero]
      omega

/-- **A half-line of keys has no width**: neither the partitions nor the row estimate are defined. -/
theorem partitionSizing_halfLine :
    pickPartitionCount 8 halfLine.minValue halfLine.maxValue = none ∧
      rangeEstimate halfLine.minValue halfLine.maxValue = none ∧ ¬SizedExactly 8 halfLine := by
  have hnone : rangeEstimate halfLine.minValue halfLine.maxValue = none := by decide
  refine ⟨by decide, hnone, ?_⟩
  intro hsized
  exact nomatch hnone.symm.trans hsized.estimate

end FirebirdScan
