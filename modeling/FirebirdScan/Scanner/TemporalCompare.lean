import FirebirdScan.Client.Fetch
import FirebirdScan.Lib.Grid
import FirebirdScan.Scanner.Pushed

/-!
# `Scanner.TemporalCompare` — temporal columns against constants

DuckDB counts days from 1970 and microseconds, Firebird counts days from 1858 and ticks. A stored value is
fetched exactly, but a constant may lie between two ticks, and is then rounded down before the server
compares it.

Both sides compare numbers: `StoredTemporal.count` is a stored value in its own unit, `Temporal.sinceEpoch` a
DuckDB value from Firebird's epoch on, and the encoder divides the one by the unit. So when a pushed test
agrees with DuckDB's is a question of rounding (`Lib.Grid`): `temporal_pushdown_exact_iff`.
-/

namespace FirebirdScan

open SearchCondition

/-! ## The two sides -/

/-- What the server describes for a placeholder compared with a column of the kind. -/
def TemporalKind.described : TemporalKind → Xsqlvar
  | .date => { sqltype := .typeDate, sqllen := 4 }
  | .time => { sqltype := .typeTime, sqllen := 4 }
  | .timestamp => { sqltype := .timestamp, sqllen := 8 }

variable {k : TemporalKind}

def Temporal.value : Temporal k → Value
  | .date d => .date d
  | .time t => .time t
  | .timestamp ts => .timestamp ts

def StoredTemporal.cell : StoredTemporal k → Cell
  | .date d => .date d.value
  | .time t => .time t.value
  | .timestamp d t => .timestamp d.value t.value

/-- The number a DuckDB value is: days or microseconds. -/
def Temporal.number : Temporal k → Int
  | .date d => d.toInt
  | .time t => t.micros.toInt
  | .timestamp ts => ts.toInt

/-- DuckDB compares the numbers; the infinite dates and timestamps are the ends of their range. -/
def temporalAlgebra (k : TemporalKind) : Algebra (Temporal k) :=
  ⟨fun _ => false, fun op a b => op.decides (compare a.number b.number)⟩

/-- What DuckDB answers for a stored value, once it is fetched. -/
def duckdbAnswer (D : FetchApi) (test : ParamTest (Temporal k)) (stored : StoredTemporal k) : Option Truth :=
  (appendValue D stored).map (test.truth (temporalAlgebra k))

/-! ## Units -/

/-- Firebird's unit, in DuckDB's. -/
def TemporalKind.unit : TemporalKind → Int
  | .date => 1
  | .time => 100
  | .timestamp => 100

/-- How long before DuckDB's epoch Firebird's is. -/
def TemporalKind.epoch : TemporalKind → Int
  | .date => mjdEpochToUnixEpochDays
  | .time => 0
  | .timestamp => mjdEpochToUnixEpochDays * microsPerDay

def Temporal.sinceEpoch (x : Temporal k) : Int := x.number + k.epoch

/-- Days or ticks. -/
def StoredTemporal.count : StoredTemporal k → Int
  | .date d => d.value.toInt
  | .time t => t.value.toNat
  | .timestamp d t => d.value.toInt * ticksPerDay + t.value.toNat

/-- Some stored value is that many days or ticks. -/
def TemporalKind.Storable (k : TemporalKind) (n : Int) : Prop := ∃ stored : StoredTemporal k, stored.count = n

theorem TemporalKind.unit_pos : 0 < k.unit := by cases k <;> decide

/-! ## The condition -/

/-- The constants the encoder has a result for: a date early enough for the epoch, a finite timestamp. -/
def Temporal.Encodable : Temporal k → Prop
  | .date d => d.toInt < 2 ^ 31 - mjdEpochToUnixEpochDays
  | .time _ => True
  | .timestamp ts => minTimestamp ≤ ts.toInt ∧ ts.toInt < 2 ^ 63 - 1

/-- Every constant can be encoded. One that is compared is on the grid of ticks, or rounds to nothing that
    can be stored, unless the operator is `<=` or `>`; and if one of a list rounds to something that can be
    stored, that is in the list as well. -/
def Exact : ParamTest (Temporal k) → Prop
  | .compare op c =>
      c.Encodable ∧
        (k.unit ∣ c.sinceEpoch ∨ ¬k.Storable (c.sinceEpoch / k.unit) ∨ op = .le ∨ op = .gt)
  | .inList _ c cs =>
      (∀ e ∈ c :: cs, e.Encodable) ∧
        ∀ e ∈ c :: cs, k.Storable (e.sinceEpoch / k.unit) →
          ∃ e' ∈ c :: cs, k.unit * (e.sinceEpoch / k.unit) = e'.sinceEpoch

/-! ## Encoding and fetching -/

section Encoding

variable {D : FetchApi}

/-- The encoder rounds a time down to a tick. -/
theorem encodeTime_toNat (t : Dtime) : ((encodeTime t).toNat : Int) = t.micros.toInt / 100 := by
  have h0 := t.nonneg
  have h1 := t.le_day
  have hlt : t.micros.toInt.toNat / 100 < 2 ^ 32 := by omega
  rw [encodeTime, UInt32.toNat_ofNat_of_lt' hlt]
  omega

theorem encoded_date (d : Int32) :
    encoded D.toValueApi (TemporalKind.date.described) (.date d) =
      (encodeDate d).value?.map .date := by
  unfold encoded bindInputParameter TemporalKind.described
  rw [if_neg (by simp [Value.isNull])]
  simp only [D.getDate_date, converted]
  cases encodeDate d <;> rfl

theorem encoded_time (t : Dtime) :
    encoded D.toValueApi (TemporalKind.time.described) (.time t) = some (.time (encodeTime t)) := by
  unfold encoded bindInputParameter TemporalKind.described
  rw [if_neg (by simp [Value.isNull])]
  simp only [D.getTime_time, converted]
  rfl

theorem encoded_timestamp (ts : Int64) :
    encoded D.toValueApi (TemporalKind.timestamp.described) (.timestamp ts) =
      (D.convert ts).bind fun (d, t) => (encodeTimestamp d t).value? := by
  unfold encoded bindInputParameter TemporalKind.described
  rw [if_neg (by simp [Value.isNull])]
  simp only [D.getTimestamp_timestamp, converted]
  cases D.convert ts with
  | none => rfl
  | some p =>
      obtain ⟨d, t⟩ := p
      show Option.filter Cell.readable (encodeTimestamp d t).value? = (encodeTimestamp d t).value?
      unfold encodeTimestamp
      cases encodeDate d <;> rfl

/-- **What the server compares with**: the constant from Firebird's epoch on, rounded down to the unit. -/
theorem encoded_eq_some {c : Temporal k} (h : c.Encodable) :
    ∃ cell, encoded D.toValueApi k.described c.value = some cell ∧ cell.isNull = false ∧
      ∀ stored : StoredTemporal k, stored.cell.order cell = some (compare stored.count (c.sinceEpoch / k.unit)) := by
  cases c with
  | date d =>
      -- the days of the two epochs differ by a constant
      obtain ⟨n, hn, hday⟩ := (encodeDate_eq d).1 h
      refine ⟨.date n, ?_, rfl, ?_⟩
      · rw [Temporal.value, encoded_date, hn]
        rfl
      · intro stored
        cases stored with
        | date m =>
            have hsince : (Temporal.date d).sinceEpoch / TemporalKind.date.unit = n.toInt := by
              simp only [Temporal.sinceEpoch, Temporal.number, TemporalKind.epoch, TemporalKind.unit]
              omega
            rw [hsince]
            rfl
  | time t =>
      refine ⟨.time (encodeTime t), encoded_time t, rfl, ?_⟩
      intro stored
      cases stored with
      | time u =>
          have hsince : (Temporal.time t).sinceEpoch / TemporalKind.time.unit = (encodeTime t).toNat := by
            simp only [Temporal.sinceEpoch, Temporal.number, TemporalKind.epoch, TemporalKind.unit,
              encodeTime_toNat, Int.add_zero]
          rw [hsince, StoredTemporal.count, Grid.compare_natCast]
          rfl
  | timestamp ts =>
      obtain ⟨⟨d, t⟩, hconvert⟩ := Option.isSome_iff_exists.mp ((D.convert_isSome ts).mpr h)
      obtain ⟨hsum, hlt⟩ := D.convert_eq ts d t hconvert
      obtain ⟨n, hn, hday⟩ := (encodeDate_eq d).1 (convert_day hconvert)
      have hticks := encodeTime_toNat t
      refine ⟨.timestamp n (encodeTime t), ?_, rfl, ?_⟩
      · rw [Temporal.value, encoded_timestamp, hconvert, Option.bind_some]
        simp only [encodeTimestamp, hn]
        rfl
      · intro stored
        cases stored with
        | timestamp m u =>
            have hu := u.lt_day
            unfold microsPerDay at hsum hlt
            unfold mjdEpochToUnixEpochDays at hday
            have hsince : (Temporal.timestamp ts).sinceEpoch / TemporalKind.timestamp.unit =
                n.toInt * ticksPerDay + (encodeTime t).toNat := by
              simp only [Temporal.sinceEpoch, Temporal.number, TemporalKind.epoch, TemporalKind.unit,
                mjdEpochToUnixEpochDays, microsPerDay, ticksPerDay]
              omega
            -- days first, then ticks: no time of day carries over into the next day
            have htick : (encodeTime t).toNat < ticksPerDay := by
              unfold ticksPerDay
              omega
            rw [hsince, StoredTemporal.count, ← Grid.compare_then hu htick]
            rfl

/-- The other constants fail: the day overflows, or the timestamp has no day. -/
theorem encoded_eq_none {c : Temporal k} (h : ¬c.Encodable) :
    encoded D.toValueApi k.described c.value = none := by
  cases c with
  | date d =>
      rw [Temporal.value, encoded_date, (encodeDate_eq d).2 h]
      rfl
  | time t => exact absurd trivial h
  | timestamp ts =>
      have hnone : D.convert ts = none := by
        rw [← Option.not_isSome_iff_eq_none, D.convert_isSome]
        exact h
      rw [Temporal.value, encoded_timestamp, hnone]
      rfl

/-- **A fetched value is exact**: the stored count, in DuckDB's unit. -/
theorem appendValue_eq (stored : StoredTemporal k) :
    ∃ x, appendValue D stored = some x ∧ x.sinceEpoch = k.unit * stored.count := by
  cases stored with
  | date d =>
      refine ⟨_, rfl, ?_⟩
      simp only [Temporal.sinceEpoch, Temporal.number, fetchDate_toInt, TemporalKind.epoch,
        TemporalKind.unit, StoredTemporal.count]
      omega
  | time t =>
      refine ⟨_, rfl, ?_⟩
      simp only [Temporal.sinceEpoch, Temporal.number, fetchTime_micros, TemporalKind.epoch,
        TemporalKind.unit, StoredTemporal.count]
      omega
  | timestamp d t =>
      obtain ⟨hfirst, hlast⟩ := isc_bounds d
      have ht := ticks_lt t
      have hday := fetchDate_toInt D d
      have htime := fetchTime_micros t
      unfold mjdEpochToUnixEpochDays at hday
      -- Firebird's years are well inside DuckDB's range
      obtain ⟨ts, hts, hnumber⟩ := D.fromDatetime_eq (fetchDate D d) (fetchTime t)
        (by unfold minTimestamp microsPerDay; omega) (by unfold microsPerDay; omega)
      refine ⟨.timestamp ts, by rw [appendValue, hts]; rfl, ?_⟩
      simp only [Temporal.sinceEpoch, Temporal.number, hnumber, hday, htime, TemporalKind.epoch,
        TemporalKind.unit, StoredTemporal.count, mjdEpochToUnixEpochDays, microsPerDay, ticksPerDay]
      omega

/-- **Encoding a fetched value gives back what is stored**, before 1970 as well as after. -/
theorem encoded_appendValue {stored : StoredTemporal k} {x : Temporal k} (hx : appendValue D stored = some x) :
    encoded D.toValueApi k.described x.value = some stored.cell := by
  obtain ⟨y, hy, hcount⟩ := appendValue_eq (D := D) stored
  obtain rfl := Option.some.inj (hx.symm.trans hy)
  clear hx hy
  cases stored with
  | date d =>
      cases x with
      | date e =>
          obtain ⟨hfirst, hlast⟩ := isc_bounds d
          simp only [Temporal.sinceEpoch, Temporal.number, TemporalKind.epoch, TemporalKind.unit,
            StoredTemporal.count] at hcount
          obtain ⟨n, hn, hback⟩ := (encodeDate_eq e).1 (by omega)
          have heq : n = d.value := Int32.toInt_inj.mp (by omega)
          rw [Temporal.value, encoded_date, hn, heq]
          rfl
  | time t =>
      cases x with
      | time u =>
          have heq : encodeTime u = t.value := by
            apply UInt32.toNat_inj.mp
            have hticks := encodeTime_toNat u
            simp only [Temporal.sinceEpoch, Temporal.number, TemporalKind.epoch, TemporalKind.unit,
              StoredTemporal.count] at hcount
            omega
          rw [Temporal.value, encoded_time, heq]
          rfl
  | timestamp d t =>
      cases x with
      | timestamp ts =>
          obtain ⟨hfirst, hlast⟩ := isc_bounds d
          have hlt := ticks_lt t
          simp only [Temporal.sinceEpoch, Temporal.number, TemporalKind.epoch, TemporalKind.unit,
            StoredTemporal.count, mjdEpochToUnixEpochDays, microsPerDay, ticksPerDay] at hcount
          have hrange : minTimestamp ≤ ts.toInt ∧ ts.toInt < 2 ^ 63 - 1 := by
            unfold minTimestamp microsPerDay
            omega
          obtain ⟨⟨e, u⟩, hconvert⟩ := Option.isSome_iff_exists.mp ((D.convert_isSome ts).mpr hrange)
          obtain ⟨hsum, hday⟩ := D.convert_eq ts e u hconvert
          obtain ⟨n, hn, hback⟩ := (encodeDate_eq e).1 (convert_day hconvert)
          have hnonneg := u.nonneg
          unfold microsPerDay at hsum hday
          unfold mjdEpochToUnixEpochDays at hback
          -- a day and a time of day are determined by their sum
          have hdate : n = d.value := Int32.toInt_inj.mp (by omega)
          have htime : encodeTime u = t.value := by
            apply UInt32.toNat_inj.mp
            have hticks := encodeTime_toNat u
            omega
          rw [Temporal.value, encoded_timestamp, hconvert, Option.bind_some]
          simp only [encodeTimestamp, hn, hdate, htime]
          rfl

end Encoding

/-! ## The answers -/

section Answers

variable {D : FetchApi}

theorem storable_iff {P : Int → Prop} :
    (∀ stored : StoredTemporal k, P stored.count) ↔ ∀ n, k.Storable n → P n := by
  constructor
  · rintro h n ⟨stored, rfl⟩
    exact h stored
  · intro h stored
    exact h _ ⟨stored, rfl⟩

/-- Some value is stored. -/
theorem exists_stored (k : TemporalKind) : Nonempty (StoredTemporal k) := by
  cases k with
  | date => exact ⟨.date ⟨0, by decide, by decide⟩⟩
  | time => exact ⟨.time ⟨0, by decide⟩⟩
  | timestamp => exact ⟨.timestamp ⟨0, by decide, by decide⟩ ⟨0, by decide⟩⟩

/-- The server and DuckDB give the same answer for a stored value. -/
def SameAnswer (D : FetchApi) (test : ParamTest (Temporal k)) (stored : StoredTemporal k) : Prop :=
  ∃ answer, serverAnswer D.toValueApi k.described (test.map Temporal.value) stored.cell = some answer ∧
    duckdbAnswer D test stored = some answer

theorem not_sameAnswer {test : ParamTest (Temporal k)} {c : Temporal k} (hc : c ∈ test.params)
    (h : ¬c.Encodable) (stored : StoredTemporal k) : ¬SameAnswer D test stored := by
  rintro ⟨answer, hserver, -⟩
  rw [serverAnswer_eq_none hc (encoded_eq_none h)] at hserver
  cases hserver

theorem isNull_cell (stored : StoredTemporal k) : stored.cell.isNull = false := by cases stored <;> rfl

/-- DuckDB may as well count from Firebird's epoch. -/
theorem temporal_compare (op : CompareOp) (x c : Temporal k) :
    (temporalAlgebra k).compare op x c = op.decides (compare x.sinceEpoch c.sinceEpoch) := by
  rw [Temporal.sinceEpoch, Temporal.sinceEpoch, Grid.compare_add_right]
  rfl

theorem cell_compare {stored : StoredTemporal k} {cell : Cell} {o : Ordering}
    (h : stored.cell.order cell = some o) (op : CompareOp) :
    cellAlgebra.compare op stored.cell cell = op.decides o := by
  simp [cellAlgebra, h]

/-- The answers are one exactly if what DuckDB answers is what the server does. -/
theorem sameAnswer_iff {test : ParamTest (Temporal k)} {stored : StoredTemporal k} {x : Temporal k}
    {answer : Truth} (hx : appendValue D stored = some x)
    (hserver : serverAnswer D.toValueApi k.described (test.map Temporal.value) stored.cell = some answer) :
    SameAnswer D test stored ↔ answer = test.truth (temporalAlgebra k) x := by
  unfold SameAnswer duckdbAnswer
  rw [hserver, hx, Option.map_some]
  constructor
  · rintro ⟨answer', hleft, hright⟩
    exact Option.some.inj (hleft.trans hright.symm)
  · rintro rfl
    exact ⟨_, rfl, rfl⟩

/-- A single constant: the operator decides the rounded comparison as it does the exact one. -/
theorem sameAnswer_compare_iff {op : CompareOp} {c : Temporal k} (h : c.Encodable)
    (stored : StoredTemporal k) :
    SameAnswer D (.compare op c) stored ↔
      op.decides (compare stored.count (c.sinceEpoch / k.unit)) =
        op.decides (compare (k.unit * stored.count) c.sinceEpoch) := by
  obtain ⟨cell, hcell, hnull, horder⟩ := encoded_eq_some (D := D) h
  obtain ⟨x, hx, hcount⟩ := appendValue_eq (D := D) stored
  have hserver := serverAnswer_compare (f := Temporal.value) op (isNull_cell stored) hcell hnull
  have hduckdb : (ParamTest.compare op c).truth (temporalAlgebra k) x =
      .ofBool ((temporalAlgebra k).compare op x c) := rfl
  rw [sameAnswer_iff hx hserver, hduckdb, Truth.ofBool_inj, cell_compare (horder stored), temporal_compare,
    hcount]

/-- A list: some rounded element is what is stored, exactly if some element is. -/
theorem sameAnswer_inList_iff {negated : Bool} {c : Temporal k} {cs : List (Temporal k)}
    (h : ∀ e ∈ c :: cs, e.Encodable) (stored : StoredTemporal k) :
    SameAnswer D (.inList negated c cs) stored ↔
      ((∃ e ∈ c :: cs, stored.count = e.sinceEpoch / k.unit) ↔
        ∃ e ∈ c :: cs, k.unit * stored.count = e.sinceEpoch) := by
  obtain ⟨x, hx, hcount⟩ := appendValue_eq (D := D) stored
  have harrives : ∀ e ∈ c :: cs, ∃ cell, encoded D.toValueApi k.described e.value = some cell ∧
      cell.isNull = false ∧
      (cellAlgebra.compare .eq stored.cell cell = true ↔ stored.count = e.sinceEpoch / k.unit) := by
    intro e he
    obtain ⟨cell, hcell, hnull, horder⟩ := encoded_eq_some (D := D) (h e he)
    refine ⟨cell, hcell, hnull, ?_⟩
    rw [cell_compare (horder stored), Grid.decides_eq_compare]
  obtain ⟨found, hserver, hfound⟩ :=
    serverAnswer_inList Temporal.value negated _ (isNull_cell stored) harrives
  obtain ⟨found', hduckdb, hfound'⟩ :=
    ParamTest.truth_inList (A := temporalAlgebra k) (a := x) c cs rfl (fun _ _ => rfl) negated
  simp only [temporal_compare, Grid.decides_eq_compare, hcount] at hfound'
  rw [sameAnswer_iff hx hserver, hduckdb, Truth.ofBool_inj, Bool.xor_left_inj, ← hfound, ← hfound']
  exact Bool.eq_iff_iff

/-- **A pushed temporal test keeps DuckDB's answer for every stored value exactly if its constants survive the
    rounding.** The extension writes the test with its constants as parameters; they are encoded, and the
    server compares; a fetched value is encoded as what is stored. -/
theorem temporal_pushdown_exact_iff (D : FetchApi) {k : TemporalKind} (test : ParamTest (Temporal k)) :
    (∀ columnName : Bytes, pushed columnName (test.map Temporal.value) =
      some (render (fun _ : Unit => columnName) ((test.map Temporal.value).tokens ()),
        test.params.map Temporal.value)) ∧
    ((∀ stored, SameAnswer D test stored) ↔ Exact test) ∧
    ∀ stored : StoredTemporal k, ∃ x, appendValue D stored = some x ∧
      encoded D.toValueApi k.described x.value = some stored.cell := by
  refine ⟨fun columnName => ?_, ?_, fun stored => ?_⟩
  · rw [← ParamTest.params_map]
    apply pushed_eq (fun _ : Unit => columnName) ()
    intro v hv
    rw [ParamTest.params_map] at hv
    obtain ⟨c, -, rfl⟩ := List.mem_map.mp hv
    cases c <;> rfl
  · -- an encoded constant is its floor in units: the test on floors has to be the test itself
    obtain ⟨stored₀⟩ := exists_stored k
    by_cases hencodable : ∀ c ∈ test.params, c.Encodable
    · cases test with
      | compare op c =>
          have hc : c.Encodable := hencodable c (by simp [ParamTest.params])
          simp only [sameAnswer_compare_iff hc, Exact, hc, true_and]
          exact (storable_iff (P := fun n => op.decides (compare n (c.sinceEpoch / k.unit)) =
            op.decides (compare (k.unit * n) c.sinceEpoch))).trans
              (Grid.decides_ediv_iff TemporalKind.unit_pos op c.sinceEpoch)
      | inList negated c cs =>
          simp only [sameAnswer_inList_iff hencodable, Exact]
          rw [and_iff_right (show ∀ e ∈ c :: cs, e.Encodable from hencodable)]
          exact (storable_iff (P := fun n => (∃ e ∈ c :: cs, n = e.sinceEpoch / k.unit) ↔
            ∃ e ∈ c :: cs, k.unit * n = e.sinceEpoch)).trans
              (Grid.mem_ediv_iff TemporalKind.unit_pos (c :: cs) Temporal.sinceEpoch)
    · -- a constant that cannot be encoded leaves no answer for any stored value
      rw [not_forall₂] at hencodable
      obtain ⟨c, hc, hbad⟩ := hencodable
      refine ⟨fun h => absurd (h stored₀) (not_sameAnswer hc hbad stored₀), fun hexact => absurd ?_ hbad⟩
      cases test with
      | compare op d =>
          obtain rfl := List.mem_singleton.mp hc
          exact hexact.1
      | inList negated d ds => exact hexact.1 c hc
  · obtain ⟨x, hx, -⟩ := appendValue_eq (D := D) stored
    exact ⟨x, hx, encoded_appendValue hx⟩

end Answers

/-! ## A constant between two ticks -/

/-- The conversions of `plainApi`, and the calendar. -/
def plainFetchApi : FetchApi where
  toValueApi := plainApi
  fromDate year month day := Int32.ofInt (dayNumber year month day - dayNumber 1970 1 1)
  fromDate_eq := by
    intro year month day hyear hmonth hday
    obtain ⟨hlo, hhi⟩ := dayNumber_range hyear.2 hmonth.2 (hday.2.trans (by decide))
    have hepoch : dayNumber 1970 1 1 = 719163 := by decide
    rw [Int32.toInt_ofInt_of_le] <;> omega

/-- `TIME '00:00:00.000150'`, a tick and a half. -/
def tickAndHalf : Dtime := { micros := 150, nonneg := by decide, le_day := by decide }

/-- **`col < TIME '00:00:00.000150'` loses the row stored as `00:00:00.0001`**: DuckDB's filter is true there,
    but the constant arrives as one tick. -/
theorem temporal_pushdown_loses_tick :
    pushed (utf8 "\"T\"") (.compare .lt (.time tickAndHalf)) = some (utf8 "\"T\" < ?", [.time tickAndHalf]) ∧
    serverAnswer plainFetchApi.toValueApi TemporalKind.time.described (.compare .lt (.time tickAndHalf))
      (.time 1) = some .false ∧
    duckdbAnswer plainFetchApi (.compare .lt (.time tickAndHalf)) (.time ⟨1, by decide⟩) = some .true ∧
    ¬SameAnswer plainFetchApi (.compare .lt (.time tickAndHalf)) (.time ⟨1, by decide⟩) := by
  refine ⟨by decide, rfl, rfl, ?_⟩
  rintro ⟨answer, hserver, hduckdb⟩
  have heq : some Truth.false = some Truth.true := hserver.trans hduckdb.symm
  cases heq

end FirebirdScan
