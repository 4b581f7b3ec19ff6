import FirebirdScan.Client.Bind
import FirebirdScan.Lib.PadSpace
import Mathlib.Order.Interval.Set.Basic
import Mathlib.Tactic.IntervalCases

/-!
# `Client.Fetch` — reading a column (`FirebirdAppendValue`, `GetText`)

The way back from `Client.Bind`: the buffer of a fetched column becomes a value in a DuckDB vector. Here are
the types that a comparison rounds or pads: the temporal ones, which Firebird counts in days since
1858-11-17 and in ticks of 100 microseconds, and text.
-/

namespace FirebirdScan

/-! ## Days -/

/-- The days of a common year before a month. -/
def daysBeforeMonth (month : Nat) : Nat :=
  [0, 31, 59, 90, 120, 151, 181, 212, 243, 273, 304, 334].getD (month - 1) 0

/-- The number of a day of the Gregorian calendar, from 1 for the first of January of the year 1. -/
def dayNumber (year month day : Nat) : Int :=
  let past := year - 1
  let leap := year % 4 = 0 ∧ (year % 100 ≠ 0 ∨ year % 400 = 0)
  (365 * past + past / 4 + past / 400 + daysBeforeMonth month + day : Nat) - (past / 100 : Nat) +
    if leap ∧ 2 < month then 1 else 0

/-- The days of ten thousand years fit in 32 bits. -/
theorem dayNumber_range {year month day : Nat} (hyear : year ≤ 9999) (hmonth : month ≤ 12) (hday : day ≤ 31) :
    0 ≤ dayNumber year month day ∧ dayNumber year month day < 2 ^ 22 := by
  have hbefore : daysBeforeMonth month ≤ 334 := by interval_cases month <;> decide
  simp only [dayNumber]
  constructor <;> split_ifs <;> omega

/-- `Date::FromDate`, which is DuckDB's: days since 1970-01-01. -/
structure FetchApi extends ValueApi where
  fromDate : Nat → Nat → Nat → Int32
  fromDate_eq : ∀ year month day, year ∈ Set.Icc 1 9999 → month ∈ Set.Icc 1 12 → day ∈ Set.Icc 1 28 →
    (fromDate year month day).toInt = dayNumber year month day - dayNumber 1970 1 1

/-- Firebird's dates: the years 1 to 9999. -/
structure IscDate where
  value : Int32
  first_le : dayNumber 1 1 1 - dayNumber 1858 11 17 ≤ value.toInt
  le_last : value.toInt ≤ dayNumber 9999 12 31 - dayNumber 1858 11 17

/-- Ticks in a day. -/
def ticksPerDay : Nat := 864000000

structure IscTime where
  value : UInt32
  lt_day : value.toNat < ticksPerDay

/-! ## Temporal values -/

inductive TemporalKind where
  | date | time | timestamp
deriving DecidableEq, Repr

/-- What Firebird stores in a column of a temporal type. -/
inductive StoredTemporal : TemporalKind → Type where
  | date (d : IscDate) : StoredTemporal .date
  | time (t : IscTime) : StoredTemporal .time
  | timestamp (d : IscDate) (t : IscTime) : StoredTemporal .timestamp

/-- `date_t`, `dtime_t` and `timestamp_t`. -/
inductive Temporal : TemporalKind → Type where
  | date (days : Int32) : Temporal .date
  | time (t : Dtime) : Temporal .time
  | timestamp (micros : Int64) : Temporal .timestamp

def fetchDate (D : FetchApi) (d : IscDate) : Int32 := D.fromDate 1858 11 17 + d.value

theorem ticks_lt (t : IscTime) : t.value.toNat * 100 < 86400000000 := by
  have h := t.lt_day
  unfold ticksPerDay at h
  omega

/-- `dtime_t(static_cast<int64_t>(ticks) * 100)`. -/
def fetchTime (t : IscTime) : Dtime where
  micros := Int64.ofNat (t.value.toNat * 100)
  nonneg := by
    have h := ticks_lt t
    rw [Int64.toInt_ofNat_of_lt (by omega)]
    omega
  le_day := by
    have h := ticks_lt t
    rw [Int64.toInt_ofNat_of_lt (by omega)]
    omega

/-- The temporal cases of `FirebirdAppendValue`. -/
def appendValue (D : FetchApi) {k : TemporalKind} : StoredTemporal k → Option (Temporal k)
  | .date d => some (.date (fetchDate D d))
  | .time t => some (.time (fetchTime t))
  | .timestamp d t => (D.fromDatetime (fetchDate D d) (fetchTime t)).map .timestamp

/-- The epoch the encoder uses is the day the decoder uses. -/
theorem epoch_eq : dayNumber 1858 11 17 - dayNumber 1970 1 1 = -mjdEpochToUnixEpochDays := by decide

theorem fromDate_epoch (D : FetchApi) : (D.fromDate 1858 11 17).toInt = -mjdEpochToUnixEpochDays := by
  rw [D.fromDate_eq 1858 11 17 (by decide) (by decide) (by decide), epoch_eq]

theorem isc_bounds (d : IscDate) : -678575 ≤ d.value.toInt ∧ d.value.toInt ≤ 2973483 := ⟨d.first_le, d.le_last⟩

theorem fetchDate_toInt (D : FetchApi) (d : IscDate) :
    (fetchDate D d).toInt = d.value.toInt - mjdEpochToUnixEpochDays := by
  obtain ⟨hfirst, hlast⟩ := isc_bounds d
  rw [fetchDate, Int32.toInt_add, fromDate_epoch]
  unfold mjdEpochToUnixEpochDays
  rw [Int.bmod_eq_of_le (by omega) (by omega)]
  omega

theorem fetchTime_micros (t : IscTime) : (fetchTime t).micros.toInt = t.value.toNat * 100 := by
  have h := ticks_lt t
  rw [fetchTime, Int64.toInt_ofNat_of_lt (by omega)]
  omega

/-! ## Text -/

/-- A `short` as a `size_t`. -/
def sizeT (n : Int16) : Nat := (n.toInt % 2 ^ 64).toNat

/-- The loop of `GetText` over a `CHAR`: from the end back past the blanks. -/
def trimmedLength (p : Bytes) : Nat → Nat
  | 0 => 0
  | len + 1 => if p[len]? = some 0x20 then trimmedLength p len else len + 1

/-- `GetText`. -/
def getText : Cell → Bytes
  | .varying len payload => payload.take len.toNat
  | .text buffer sqllen => buffer.take (trimmedLength buffer (sizeT sqllen))
  | _ => []

/-- The loop drops the trailing blanks. -/
theorem take_trimmedLength (p : Bytes) {len : Nat} (hlen : len ≤ p.length) :
    p.take (trimmedLength p len) = PadSpace.rtrim 0x20 (p.take len) := by
  induction len with
  | zero => rfl
  | succ len ih =>
      have hget : p[len]? = some p[len] := List.getElem?_eq_getElem (by omega)
      rw [trimmedLength, List.take_add_one, hget, PadSpace.rtrim]
      simp only [Option.some.injEq, Option.toList_some]
      by_cases hblank : p[len] = 0x20
      · rw [if_pos hblank, List.rdropWhile_concat_pos _ _ _ (by simpa using hblank), ih (by omega)]
        rfl
      · rw [if_neg hblank, List.rdropWhile_concat_neg _ _ _ (by simpa using hblank), List.take_add_one, hget]
        rfl

end FirebirdScan
