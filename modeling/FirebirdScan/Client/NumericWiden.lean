import FirebirdScan.Client.AppendValue

/-!
# `Client.NumericWiden` — scaled integers under `numeric_widen_int64 = true`

The option declares a scaled `BIGINT` as `DECIMAL(38, s)`; a scaled `SMALLINT` or `INTEGER` stays a
`DECIMAL(4, s)` or `DECIMAL(9, s)`. Firebird holds a value to the range of its integer, not to the precision the
column was declared with, so the fetched integer may have more digits than the `DECIMAL` has.

`widened_lossless_iff` says for which integers it does not: every `BIGINT`, and the `SMALLINT`s and `INTEGER`s of
up to 4, or 9, digits.
-/

namespace FirebirdScan

/-- The cell is a value of the `DECIMAL(width, scale)`, and is read back as the number Firebird holds. -/
structure Lossless (col : FirebirdColumnDesc) (noneEncoding : NoneEncoding) (cell : Wire col.sqltype) (raw : Int)
    (width scale : Nat) : Prop where
  inDomain : |raw| < 10 ^ width
  stored : ∃ e, (∀ D, firebirdAppendValue D col (some cell) ⟨.decimal, width, scale⟩ noneEncoding = .element e) ∧
    e.integer = some raw ∧ e.readAs ⟨.decimal, width, scale⟩ = some (.finite (raw * 10 ^ (-(scale : Int))))

/-- A narrow integer has no more digits than its `DECIMAL`. -/
def NarrowFits (sqltype : SqlType) (raw : Int) : Prop :=
  (sqltype = .short → -9999 ≤ raw ∧ raw ≤ 9999) ∧
  (sqltype = .long → -999999999 ≤ raw ∧ raw ≤ 999999999)

/-- The integer types a scale makes a `DECIMAL(4)`, a `DECIMAL(9)` or, widened, a `DECIMAL(38)` of. -/
def ScaledBacking (sqltype : SqlType) : Prop := sqltype = .short ∨ sqltype = .long ∨ sqltype = .int64

section Widened

variable {col : FirebirdColumnDesc} {noneEncoding : NoneEncoding} {width scale : Nat}

/-- A scaled integer that is declared `DECIMAL` has a scale the width can carry. -/
theorem scaledIntegerToDecimal_eq {precisionHint : Nat} {sqlscale : Int16} {widenInt64 : Bool}
    (hne : sqlscale ≠ 0)
    (h : scaledIntegerToDecimal precisionHint sqlscale widenInt64 = ⟨.decimal, width, scale⟩) :
    width = scaledWidth precisionHint widenInt64 ∧ sqlscale.toInt = -(scale : Int) := by
  have hint : sqlscale.toInt ≠ 0 := fun h0 => hne (sqlscale_eq_zero.mpr h0)
  by_cases hcarried : -(scaledWidth precisionHint widenInt64 : Int) ≤ sqlscale.toInt ∧ sqlscale.toInt ≤ 0
  · rw [scaledIntegerToDecimal_carried hcarried.1 (by omega)] at h
    have hwidth := congrArg LogicalType.width h
    have hscale := congrArg LogicalType.scale h
    dsimp only at hwidth hscale
    exact ⟨hwidth.symm, by omega⟩
  · rw [scaledIntegerToDecimal_degrades hcarried] at h
    cases h

theorem ScaledBacking.not_noneText (hbacking : ScaledBacking col.sqltype) : col.isNoneText = false := by
  unfold FirebirdColumnDesc.isNoneText
  rcases hbacking with h | h | h <;> simp [h]

theorem ScaledBacking.columnType_eq (hbacking : ScaledBacking col.sqltype) (widen : Bool) :
    columnType col noneEncoding widen = firebirdToDuckDBType col widen := by
  unfold columnType
  rw [hbacking.not_noneText]
  exact if_neg fun h => by cases h.2

/-- What the mapped type says of the column: the width is that of the backing, the scale is the column's. -/
theorem widened_decimal (hbacking : ScaledBacking col.sqltype) (hscale : col.sqlscale ≠ 0)
    (htype : columnType col noneEncoding true = ⟨.decimal, width, scale⟩) :
    decimalDigits true col.sqltype = some width ∧ col.sqlscale.toInt = -(scale : Int) := by
  rw [hbacking.columnType_eq, firebirdToDuckDBType] at htype
  rcases hbacking with h | h | h
  · rw [h] at htype ⊢
    obtain ⟨rfl, hs⟩ := scaledIntegerToDecimal_eq hscale htype
    exact ⟨rfl, hs⟩
  · rw [h] at htype ⊢
    obtain ⟨rfl, hs⟩ := scaledIntegerToDecimal_eq hscale htype
    exact ⟨rfl, hs⟩
  · rw [h] at htype ⊢
    obtain ⟨rfl, hs⟩ := scaledIntegerToDecimal_eq hscale htype
    exact ⟨rfl, hs⟩

variable {t : SqlType} {cell : Wire t} {raw : Int}

/-- The integer is stored whole, in the layout of the `DECIMAL`. -/
theorem decimal_stored (col : FirebirdColumnDesc) (noneEncoding : NoneEncoding) (scale : Nat)
    (ht : ScaledBacking t) (hdigits : decimalDigits true t = some width) (hraw : cell.raw = some raw) :
    ∃ e, (∀ D, appendWire D col ⟨.decimal, width, scale⟩ noneEncoding cell = .element e) ∧
      e.integer = some raw ∧ LogicalType.internalType ⟨.decimal, width, scale⟩ = some e.physicalType := by
  cases cell with
  | short n =>
      obtain rfl := Option.some.inj hdigits
      exact ⟨.int16 n, fun D => rfl, hraw, rfl⟩
  | long n =>
      obtain rfl := Option.some.inj hdigits
      exact ⟨.int32 n, fun D => rfl, hraw, rfl⟩
  | int64 n =>
      obtain rfl := Option.some.inj hdigits
      refine ⟨.int128 (hugeint (if n < 0 then -1 else 0) n.toUInt64), fun D => rfl, ?_, rfl⟩
      exact (congrArg some (hugeint_widen n)).trans hraw
  | undecoded hu buffer => cases hraw
  | _ => rcases ht with h | h | h <;> cases h

/-- The stored element is read back exactly, also where the integer has too many digits for the `DECIMAL`. -/
theorem widened_stored (ht : ScaledBacking t) (hdigits : decimalDigits true t = some width)
    (hraw : cell.raw = some raw) :
    ∃ e, (∀ D, appendWire D col ⟨.decimal, width, scale⟩ noneEncoding cell = .element e) ∧
      e.integer = some raw ∧
      e.readAs ⟨.decimal, width, scale⟩ = some (.finite (raw * 10 ^ (-(scale : Int)))) := by
  obtain ⟨e, happend, he, hlayout⟩ := decimal_stored col noneEncoding scale ht hdigits hraw
  have hcarries : CarriesScale ⟨.decimal, width, scale⟩ (-(scale : Int)) := by
    rw [CarriesScale, if_pos rfl, neg_neg]
    exact ⟨by omega, rfl⟩
  exact ⟨e, happend, he, readAs_integer he hlayout hcarries⟩

/-- What the backing can hold, in the digits of the `DECIMAL` it is mapped to. -/
theorem raw_domain_iff (ht : ScaledBacking t) (hdigits : decimalDigits true t = some width)
    (hraw : cell.raw = some raw) : |raw| < 10 ^ width ↔ NarrowFits t raw := by
  rw [abs_lt]
  unfold NarrowFits
  cases cell with
  | short n =>
      obtain rfl := Option.some.inj hdigits
      constructor
      · intro h
        exact ⟨fun _ => ⟨by omega, by omega⟩, fun h' => absurd h' (by decide)⟩
      · intro h
        have hbound := h.1 rfl
        constructor <;> omega
  | long n =>
      obtain rfl := Option.some.inj hdigits
      constructor
      · intro h
        exact ⟨fun h' => absurd h' (by decide), fun _ => ⟨by omega, by omega⟩⟩
      · intro h
        have hbound := h.2 rfl
        constructor <;> omega
  | int64 n =>
      -- nineteen digits hold every `int64_t`
      obtain rfl := Option.some.inj hdigits
      obtain rfl := Option.some.inj hraw
      have hmin : -9223372036854775808 ≤ n.toInt := n.minValue_le_toInt
      have hmax : n.toInt ≤ 9223372036854775807 := n.toInt_le
      constructor
      · intro h
        exact ⟨fun h' => absurd h' (by decide), fun h' => absurd h' (by decide)⟩
      · intro h
        rw [if_pos rfl]
        constructor <;> omega
  | undecoded hu buffer => cases hraw
  | _ => rcases ht with h | h | h <;> cases h

end Widened

/-- **Which scaled integers the widened mapping loses nothing of.** The option widens the `BIGINT`s only. -/
theorem widened_lossless_iff {col : FirebirdColumnDesc} (hbacking : ScaledBacking col.sqltype)
    (hscale : col.sqlscale ≠ 0) (noneEncoding : NoneEncoding) {width scale : Nat}
    (htype : columnType col noneEncoding true = ⟨.decimal, width, scale⟩) (cell : Wire col.sqltype) {raw : Int}
    (hraw : cell.raw = some raw) :
    Lossless col noneEncoding cell raw width scale ↔ NarrowFits col.sqltype raw := by
  obtain ⟨hdigits, -⟩ := widened_decimal hbacking hscale htype
  rw [← raw_domain_iff hbacking hdigits hraw]
  constructor
  · intro h
    exact h.inDomain
  · intro h
    exact ⟨h, widened_stored hbacking hdigits hraw⟩

/-- A `NUMERIC(18, 4)` column. -/
def balanceColumn : FirebirdColumnDesc where
  name := utf8 "BALANCE"
  sqltype := .int64
  sqlscale := -4

/-- The least `int64_t` is sign-extended into the `DECIMAL(38, 4)`. -/
theorem widened_lossless_balance :
    Lossless balanceColumn .win1252 (.int64 Int64.minValue) (-9223372036854775808) 38 4 :=
  (@widened_lossless_iff balanceColumn (.inr (.inr rfl)) (by decide) .win1252 38 4 rfl
    (.int64 Int64.minValue) _ rfl).mpr ⟨fun h => absurd h (by decide), fun h => absurd h (by decide)⟩

/-- A `NUMERIC(4, 2)` column, which Firebird keeps as a `SMALLINT`. -/
def rateColumn : FirebirdColumnDesc where
  name := utf8 "RATE"
  sqltype := .short
  sqlscale := -2

/-- **A `SMALLINT` can exceed its `DECIMAL(4, 2)`**: `327.67` is stored in a vector whose largest value is
    `99.99`. -/
theorem rateColumn_exceeds :
    ScaledBacking rateColumn.sqltype ∧ rateColumn.sqlscale ≠ 0 ∧
    columnType rateColumn .win1252 true = ⟨.decimal, 4, 2⟩ ∧ (Wire.short 32767).raw = some 32767 ∧
    (∀ D, firebirdAppendValue D rateColumn (some (.short 32767)) ⟨.decimal, 4, 2⟩ .win1252 =
      .element (.int16 32767)) ∧
    ¬Lossless rateColumn .win1252 (.short 32767) 32767 4 2 := by
  refine ⟨.inl rfl, by decide, rfl, rfl, fun D => rfl, ?_⟩
  intro h
  exact absurd h.inDomain (by decide)

end FirebirdScan
