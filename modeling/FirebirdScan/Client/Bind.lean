import FirebirdScan.Lib.Scaled
import FirebirdScan.Types

/-!
# `Client.Bind` — encoding parameters for the server (`BindInputParameters`)

The server describes each placeholder by a base type, a decimal scale and a length; the client converts the
parameter to that type and fills a buffer. The conversions are DuckDB's (`ValueApi`); what the client does
with their results is here: it narrows integers, never looks at the scale, and keeps lengths in 16 bits.

`decode` reads a buffer by the layout of its type, and `Same` says that this is the parameter's value.
`failsOrArrives_iff` says for which parameters the bind fails or the value arrives (`Fits` spells it out for
each type), and `bindInputParameters_arrive_iff` carries this through the loop over the placeholders.
-/

namespace FirebirdScan

/-! ## What DuckDB provides -/

/-- The number that a value of a bindable type is, if it is one. `spells` reads texts. -/
def Value.quantity (spells : String → Option Ieee.Quantity) : Value → Option Ieee.Quantity
  | .boolean b => some (.finite (if b then 1 else 0))
  | .tinyint n => some (.finite n.toInt)
  | .smallint n => some (.finite n.toInt)
  | .integer n => some (.finite n.toInt)
  | .bigint n => some (.finite n.toInt)
  | .float d => some d.quantity
  | .double d => some d.quantity
  | .varchar s => spells s
  | _ => none

/-- Microseconds in a day. -/
def microsPerDay : Int := 86400000000

/-- The first instant of DuckDB's timestamps. -/
def minTimestamp : Int := -106751991 * microsPerDay

/-- The accessors of `Value`, `Timestamp::Convert` and `Timestamp::FromDatetime`, which are DuckDB's, with
    what is documented of them: `none` is an exception. Numbers convert to a nearest integer and exactly to a
    floating-point type that holds them, temporal values to their own type exactly. A timestamp has a day and
    a time of day if it is finite; the infinite ones are the ends of the range of `int64_t`. -/
structure ValueApi where
  toText : Value → Bytes
  toText_varchar : ∀ s, toText (.varchar s) = utf8 s
  spells : String → Option Ieee.Quantity
  getInt64 : Value → Option Int64
  getInt64_nearest : ∀ v n x, getInt64 v = some n → v.quantity spells = some x →
    ∃ q : ℚ, x = .finite q ∧ |(n.toInt : ℚ) - q| ≤ 1 / 2
  getDouble : Value → Option (Ieee.Datum Ieee.binary64)
  getDouble_exact : ∀ v d x, getDouble v = some d → v.quantity spells = some x →
    Ieee.binary64.Holds x → d.quantity = x
  toFloat : Ieee.Datum Ieee.binary64 → Ieee.Datum Ieee.binary32
  toFloat_exact : ∀ d, Ieee.binary32.Holds d.quantity → (toFloat d).quantity = d.quantity
  getBool : Value → Option Bool
  getBool_nonzero : ∀ v b x, getBool v = some b → v.quantity spells = some x → b = decide (x ≠ .finite 0)
  getDate : Value → Option Int32
  getDate_date : ∀ d, getDate (.date d) = some d
  getDate_timestamp : ∀ ts d, getDate (.timestamp ts) = some d → microsPerDay ∣ ts.toInt →
    d.toInt * microsPerDay = ts.toInt
  getTime : Value → Option Dtime
  getTime_time : ∀ t, getTime (.time t) = some t
  getTimestamp : Value → Option Int64
  getTimestamp_timestamp : ∀ ts, getTimestamp (.timestamp ts) = some ts
  convert : Int64 → Option (Int32 × Dtime)
  convert_eq : ∀ ts d t, convert ts = some (d, t) →
    d.toInt * microsPerDay + t.micros.toInt = ts.toInt ∧ t.micros.toInt < microsPerDay
  convert_isSome : ∀ ts, (convert ts).isSome ↔ minTimestamp ≤ ts.toInt ∧ ts.toInt < 2 ^ 63 - 1
  getTimestamp_date : ∀ d ts, getTimestamp (.date d) = some ts →
    convert ts = none ∨ ts.toInt = d.toInt * microsPerDay
  fromDatetime : Int32 → Dtime → Option Int64
  fromDatetime_eq : ∀ d t, minTimestamp ≤ d.toInt * microsPerDay + t.micros.toInt →
    d.toInt * microsPerDay + t.micros.toInt < 2 ^ 63 - 1 →
    ∃ ts, fromDatetime d t = some ts ∧ ts.toInt = d.toInt * microsPerDay + t.micros.toInt

/-! ## The source -/

/-- An `XSQLVAR` as `isc_dsql_describe_bind` fills it. -/
structure Xsqlvar where
  sqltype : SqlType
  sqlscale : Int16 := 0
  sqllen : Nat := 0
  sqllen_short : sqllen < 2 ^ 15 := by decide

/-- A filled `sqldata`. A `CHAR` comes with its `sqllen`, which has a sign. A `VARCHAR` is counted by its length prefix,
    which has none; the `sqllen` that is stored beside it is left out. `null` is an indicator of `-1`. -/
inductive Cell where
  | null
  | text (buffer : Bytes) (sqllen : Int16)
  | varying (len : UInt16) (payload : Bytes)
  | short (n : Int16)
  | long (n : Int32)
  | int64 (n : Int64)
  | float (d : Ieee.Datum Ieee.binary32)
  | double (d : Ieee.Datum Ieee.binary64)
  | boolean (b : UInt8)
  | date (n : Int32)
  | time (n : UInt32)
  | timestamp (date : Int32) (time : UInt32)

/-- What `BindInputParameters` throws; its messages add the statement's text. -/
inductive BindError where
  | parameterCountMismatch (sqld params : Nat)
  | conversion
  | cannotBind (index : Nat) (sqltype : SqlType)
deriving DecidableEq

/-- `overflow` is a signed overflow, which has no meaning in the source. -/
inductive Outcome (α : Type) where
  | throws (e : BindError)
  | overflow
  | ok (a : α)

/-- Go on with a converted value, if the conversion does not throw. -/
def converted {α β : Type} (a : Option α) (f : α → Outcome β) : Outcome β :=
  match a with
  | none => .throws .conversion
  | some a => f a

/-- `MJD_EPOCH_TO_UNIX_EPOCH_DAYS`. -/
def mjdEpochToUnixEpochDays : Int := 40587

/-- The `int32_t` sum of a day and the epoch. -/
def encodeDate (d : Int32) : Outcome Int32 :=
  if d.toInt + mjdEpochToUnixEpochDays < 2 ^ 31 then
    .ok (Int32.ofInt (d.toInt + mjdEpochToUnixEpochDays))
  else .overflow

/-- `static_cast<ISC_TIME>(micros / 100)`. -/
def encodeTime (t : Dtime) : UInt32 := UInt32.ofNat (t.micros.toInt.toNat / 100)

/-- A day and a time of day. -/
def encodeTimestamp (d : Int32) (t : Dtime) : Outcome Cell :=
  match encodeDate d with
  | .throws e => .throws e
  | .overflow => .overflow
  | .ok date => .ok (.timestamp date (encodeTime t))

/-- One round of the loop of `BindInputParameters`: the switch on the described type. -/
def bindInputParameter (D : ValueApi) (index : Nat) (var : Xsqlvar) (val : Value) : Outcome Cell :=
  if val.isNull then .ok .null
  else
    match var.sqltype with
    -- the buffer grows to a constant longer than the column
    | .text =>
        let s := D.toText val
        let cap := max var.sqllen s.length
        .ok (.text (s ++ List.replicate (cap - s.length) 0x20) (Int16.ofNat cap))
    | .varying =>
        let s := D.toText val
        .ok (.varying (UInt16.ofNat s.length) s)
    -- the integer types: `sqlscale` is never read
    | .short => converted (D.getInt64 val) fun n => .ok (.short n.toInt16)
    | .long => converted (D.getInt64 val) fun n => .ok (.long n.toInt32)
    | .int64 => converted (D.getInt64 val) fun n => .ok (.int64 n)
    | .float => converted (D.getDouble val) fun d => .ok (.float (D.toFloat d))
    | .double | .dFloat => converted (D.getDouble val) fun d => .ok (.double d)
    | .boolean => converted (D.getBool val) fun b => .ok (.boolean (if b then 1 else 0))
    | .typeDate =>
        converted (D.getDate val) fun d =>
          match encodeDate d with
          | .throws e => .throws e
          | .overflow => .overflow
          | .ok n => .ok (.date n)
    | .typeTime => converted (D.getTime val) fun t => .ok (.time (encodeTime t))
    | .timestamp =>
        converted (D.getTimestamp val) fun ts => converted (D.convert ts) fun (d, t) => encodeTimestamp d t
    | _ => .throws (.cannotBind index var.sqltype)

/-- The loop, from placeholder `index` on. -/
def bindLoop (D : ValueApi) : Nat → List (Xsqlvar × Value) → Outcome (List Cell)
  | _, [] => .ok []
  | index, (var, val) :: rest =>
      match bindInputParameter D index var val with
      | .throws e => .throws e
      | .overflow => .overflow
      | .ok cell =>
          match bindLoop D (index + 1) rest with
          | .throws e => .throws e
          | .overflow => .overflow
          | .ok cells => .ok (cell :: cells)

/-- `BindInputParameters`. -/
def bindInputParameters (D : ValueApi) (described : List Xsqlvar) (params : List Value) :
    Outcome (List Cell) :=
  if described.length ≠ params.length then
    .throws (.parameterCountMismatch described.length params.length)
  else bindLoop D 0 (described.zip params)

/-! ## What the server reads -/

/-- What a buffer holds, by Firebird's layout for its type. By a length below zero it holds nothing. -/
inductive Decoded where
  | null
  | unreadable
  | text (s : Bytes)
  | padded (s : Bytes)
  | number (x : Ieee.Quantity)
  | truth (b : Bool)
  | date (days : Int)
  | time (micros : Int)
  | timestamp (micros : Int)

/-- The bytes that an `sqllen` counts. One below zero counts none. -/
def counted (buffer : Bytes) (sqllen : Int16) : Option Bytes :=
  if 0 ≤ sqllen.toInt then some (buffer.take sqllen.toInt.toNat) else none

def decode (scale : Int16) : Cell → Decoded
  | .null => .null
  | .text buffer sqllen => ((counted buffer sqllen).map .padded).getD .unreadable
  | .varying len payload => .text (payload.take len.toNat)
  | .short n => .number (.finite (n.toInt * 10 ^ scale.toInt))
  | .long n => .number (.finite (n.toInt * 10 ^ scale.toInt))
  | .int64 n => .number (.finite (n.toInt * 10 ^ scale.toInt))
  | .float d => .number d.quantity
  | .double d => .number d.quantity
  | .boolean b => .truth (b ≠ 0)
  | .date n => .date (n.toInt - mjdEpochToUnixEpochDays)
  | .time n => .time (n.toNat * 100)
  | .timestamp d t => .timestamp ((d.toInt - mjdEpochToUnixEpochDays) * microsPerDay + t.toNat * 100)

namespace ValueApi

variable (D : ValueApi)

def quantity (v : Value) : Option Ieee.Quantity := v.quantity D.spells

/-- The truth value that a value is: zero and one are, and a text is what DuckDB reads it as. -/
def truth : Value → Option Bool
  | .varchar s => D.getBool (.varchar s)
  | v => if D.quantity v = some (.finite 0) then some false
      else if D.quantity v = some (.finite 1) then some true else none

/-- The day that a value is: a timestamp is one at midnight. -/
def day : Value → Option Int
  | .date d => some d.toInt
  | .timestamp ts => if microsPerDay ∣ ts.toInt then some (ts.toInt / microsPerDay) else none
  | .varchar s => (D.getDate (.varchar s)).map (·.toInt)
  | _ => none

/-- The time of day that a value is. -/
def timeOfDay : Value → Option Int
  | .time t => some t.micros.toInt
  | .varchar s => (D.getTime (.varchar s)).map (·.micros.toInt)
  | _ => none

/-- The instant that a value is: a day is its midnight. -/
def instant : Value → Option Int
  | .timestamp ts => some ts.toInt
  | .date d => some (d.toInt * microsPerDay)
  | .varchar s => (D.getTimestamp (.varchar s)).map (·.toInt)
  | _ => none

end ValueApi

/-- The decoded value is the parameter's. A padded text may have more blanks. -/
def Same (D : ValueApi) (v : Value) : Decoded → Prop
  | .null => v.isNull = true
  | .unreadable => False
  | .text s => s = D.toText v
  | .padded s => ∃ k, s = D.toText v ++ List.replicate k 0x20
  | .number x => D.quantity v = some x
  | .truth b => D.truth v = some b
  | .date days => D.day v = some days
  | .time micros => D.timeOfDay v = some micros
  | .timestamp micros => D.instant v = some micros

/-- The parameter arrives with its value. -/
def Arrives (D : ValueApi) (var : Xsqlvar) (val : Value) (cell : Cell) : Prop :=
  Same D val (decode var.sqlscale cell)

/-- The bind throws, or the parameter arrives with its value. -/
def FailsOrArrives (D : ValueApi) (index : Nat) (var : Xsqlvar) (val : Value) : Prop :=
  match bindInputParameter D index var val with
  | .throws _ => True
  | .overflow => False
  | .ok cell => Arrives D var val cell

/-! ## The condition -/

/-- The value is zero, or an integer of the width for a parameter without a scale. -/
def FitsInteger (D : ValueApi) (w : Nat) (var : Xsqlvar) (val : Value) : Prop :=
  ∃ q, D.quantity val = some (.finite q) ∧ (q = 0 ∨ (var.sqlscale.toInt = 0 ∧ Scaled.FitsWidth w q))

/-- The value is a number the format has. -/
def FitsFormat (D : ValueApi) (fmt : Ieee.Format) (val : Value) : Prop :=
  ∃ x, D.quantity val = some x ∧ fmt.Holds x

/-- The parameters that arrive: those DuckDB refuses to convert aside, an integer type needs an integer it
    has room for and no scale, a floating-point type a number it has, a truth value zero or one, a temporal
    type a value of its kind, early enough for the epoch, and a text type as many bytes as its length can count: less
    than `2 ^ 15` for a `CHAR`, less than `2 ^ 16` for a `VARCHAR`. -/
def Fits (D : ValueApi) (var : Xsqlvar) (val : Value) : Prop :=
  match var.sqltype with
  | .text => (D.toText val).length < 2 ^ 15
  | .varying => (D.toText val).length < 2 ^ 16
  | .short => D.getInt64 val = none ∨ FitsInteger D 16 var val
  | .long => D.getInt64 val = none ∨ FitsInteger D 32 var val
  | .int64 => D.getInt64 val = none ∨ FitsInteger D 64 var val
  | .float => D.getDouble val = none ∨ FitsFormat D Ieee.binary32 val
  | .double | .dFloat => D.getDouble val = none ∨ FitsFormat D Ieee.binary64 val
  | .boolean => D.getBool val = none ∨ (D.truth val).isSome
  | .typeDate =>
      D.getDate val = none ∨ ∃ d, D.day val = some d ∧ d < 2 ^ 31 - mjdEpochToUnixEpochDays
  | .typeTime => D.getTime val = none ∨ (D.timeOfDay val).isSome
  | .timestamp => (D.getTimestamp val).bind D.convert = none ∨ (D.instant val).isSome
  | _ => True

/-- A time or a timestamp is a whole number of ticks of 100 microseconds. -/
def OnTickGrid (D : ValueApi) (sqltype : SqlType) (val : Value) : Prop :=
  match sqltype with
  | .typeTime => ∀ t, D.getTime val = some t → 100 ∣ t.micros.toInt
  | .timestamp => ∀ ts, D.getTimestamp val = some ts → 100 ∣ ts.toInt
  | _ => True

/-! ## Type by type -/

section Types

variable {D : ValueApi} {var : Xsqlvar} {val : Value}

/-- A length that does not fit in 16 bits loses characters. -/
theorem varying_same_iff (s : Bytes) (hs : s = D.toText val) :
    Same D val (.text (s.take (UInt16.ofNat s.length).toNat)) ↔ s.length < 2 ^ 16 := by
  show s.take (UInt16.ofNat s.length).toNat = D.toText val ↔ s.length < 2 ^ 16
  rw [← hs, List.take_eq_self_iff, UInt16.toNat_ofNat']
  have hmod := Nat.mod_lt s.length (show 0 < 2 ^ 16 by decide)
  constructor
  · intro h
    omega
  · intro h
    rw [Nat.mod_eq_of_lt h]

section Counted

variable (s : Bytes) {n : Nat}

theorem length_filled : (s ++ List.replicate (max n s.length - s.length) 0x20).length = max n s.length := by
  rw [List.length_append, List.length_replicate]
  omega

/-- A text that is not too long is counted with its blanks. -/
theorem counted_short (hn : n < 2 ^ 15) (hs : s.length < 2 ^ 15) :
    counted (s ++ List.replicate (max n s.length - s.length) 0x20) (Int16.ofNat (max n s.length)) =
      some (s ++ List.replicate (max n s.length - s.length) 0x20) := by
  have hlength : (Int16.ofNat (max n s.length)).toInt = max n s.length := Int16.toInt_ofNat_of_lt (by omega)
  unfold counted
  rw [hlength, if_pos (by omega), List.take_of_length_le]
  rw [length_filled]
  omega

/-- A longer one is longer than any column, so there are no blanks; its length has 16 bits, the first of which is the
    sign. -/
theorem counted_long (hn : n < 2 ^ 15) (hs : 2 ^ 15 ≤ s.length) :
    counted (s ++ List.replicate (max n s.length - s.length) 0x20) (Int16.ofNat (max n s.length)) =
      if s.length % 2 ^ 16 < 2 ^ 15 then some (s.take (s.length % 2 ^ 16)) else none := by
  have hmax : max n s.length = s.length := by omega
  have hlength : (Int16.ofNat s.length).toInt = (s.length : Int).bmod (2 ^ 16) := Int16.toInt_ofNat'
  unfold counted
  rw [hmax, Nat.sub_self, List.replicate_zero, List.append_nil]
  generalize (Int16.ofNat s.length).toInt = len at hlength ⊢
  rw [Int.bmod_def] at hlength
  by_cases hsign : s.length % 2 ^ 16 < 2 ^ 15
  · have hlen : len = (s.length % 2 ^ 16 : Nat) := by split_ifs at hlength <;> omega
    rw [if_pos hsign, hlen, if_pos (Int.natCast_nonneg _), Int.toNat_natCast]
  · rw [if_neg hsign, if_neg]
    split_ifs at hlength <;> omega

end Counted

/-- A length from `2 ^ 15` on is below zero, or loses characters. -/
theorem text_same_iff (s : Bytes) (hs : s = D.toText val) {n : Nat} (hn : n < 2 ^ 15) (scale : Int16) :
    Same D val (decode scale (.text (s ++ List.replicate (max n s.length - s.length) 0x20)
      (Int16.ofNat (max n s.length)))) ↔ s.length < 2 ^ 15 := by
  rw [decode]
  rcases Nat.lt_or_ge s.length (2 ^ 15) with hshort | hlong
  · rw [counted_short s hn hshort]
    exact iff_of_true ⟨_, congrArg (· ++ _) hs⟩ hshort
  · refine iff_of_false ?_ (Nat.not_lt_of_ge hlong)
    rw [counted_long s hn hlong]
    split_ifs with hsign
    · rintro ⟨k, hk⟩
      -- what is cut is shorter than the text
      have hcut := congrArg List.length hk
      rw [← hs, List.length_take, List.length_append] at hcut
      omega
    · exact id

variable (var) in
theorem integer_same_iff {w : Nat} (hw : 0 < w) {n : Int64} (h : D.getInt64 val = some n) :
    Same D val (.number (.finite (Scaled.received w var.sqlscale.toInt n.toInt))) ↔
      FitsInteger D w var val := by
  show D.quantity val = some _ ↔ FitsInteger D w var val
  unfold FitsInteger
  constructor
  · intro hq
    obtain ⟨q, hx, hnear⟩ := D.getInt64_nearest val n _ h hq
    obtain rfl := Ieee.Quantity.finite.inj hx
    exact ⟨_, hq, (Scaled.arrives_iff hw hnear).mp rfl⟩
  · rintro ⟨q, hq, hfits⟩
    obtain ⟨q', hx, hnear⟩ := D.getInt64_nearest val n _ h hq
    obtain rfl := Ieee.Quantity.finite.inj hx
    rw [(Scaled.arrives_iff hw hnear).mpr hfits]
    exact hq

theorem double_same_iff {d : Ieee.Datum Ieee.binary64} (h : D.getDouble val = some d) :
    Same D val (.number d.quantity) ↔ FitsFormat D Ieee.binary64 val := by
  show D.quantity val = some d.quantity ↔ FitsFormat D Ieee.binary64 val
  unfold FitsFormat
  constructor
  · intro hq
    exact ⟨_, hq, d.holds⟩
  · rintro ⟨x, hq, hholds⟩
    rw [D.getDouble_exact val d x h hq hholds]
    exact hq

theorem float_same_iff {d : Ieee.Datum Ieee.binary64} (h : D.getDouble val = some d) :
    Same D val (.number (D.toFloat d).quantity) ↔ FitsFormat D Ieee.binary32 val := by
  show D.quantity val = some (D.toFloat d).quantity ↔ FitsFormat D Ieee.binary32 val
  unfold FitsFormat
  constructor
  · intro hq
    exact ⟨_, hq, (D.toFloat d).holds⟩
  · rintro ⟨x, hq, hholds⟩
    have hd := D.getDouble_exact val d x h hq (Ieee.holds_binary64 hholds)
    rw [D.toFloat_exact d (by rwa [hd]), hd]
    exact hq

/-- The truth value that a value is, is the one DuckDB converts it to. -/
theorem truth_eq_some {b t : Bool} (h : D.getBool val = some b) (ht : D.truth val = some t) : t = b := by
  unfold ValueApi.truth at ht
  split at ht
  · exact Option.some.inj (ht.symm.trans h)
  · split_ifs at ht with h0 h1
    · obtain rfl := Option.some.inj ht
      rw [D.getBool_nonzero val b _ h h0]
      simp
    · obtain rfl := Option.some.inj ht
      rw [D.getBool_nonzero val b _ h h1]
      simp

/-- Where a value can only be `a`, it is `a` as soon as there is one. -/
theorem eq_some_iff_isSome {α : Type} {o : Option α} {a : α} (h : ∀ x, o = some x → x = a) :
    o = some a ↔ o.isSome := by
  constructor
  · intro ho
    rw [ho]
    rfl
  · intro ho
    obtain ⟨x, hx⟩ := Option.isSome_iff_exists.mp ho
    rw [hx, h x hx]

theorem boolean_same_iff {b : Bool} (h : D.getBool val = some b) :
    Same D val (.truth ((if b then (1 : UInt8) else 0) ≠ 0)) ↔ (D.truth val).isSome := by
  have hb : decide ((if b then (1 : UInt8) else 0) ≠ 0) = b := by cases b <;> decide
  show D.truth val = some _ ↔ (D.truth val).isSome
  rw [hb]
  exact eq_some_iff_isSome fun _ ht => truth_eq_some h ht

/-- The day that a value is, is the one DuckDB converts it to. -/
theorem day_eq_some {d : Int32} {x : Int} (h : D.getDate val = some d) (hx : D.day val = some x) :
    x = d.toInt := by
  cases val with
  | date e =>
      rw [D.getDate_date] at h
      exact Option.some.inj (hx.symm.trans (congrArg (·.map (·.toInt)) h))
  | timestamp ts =>
      simp only [ValueApi.day] at hx
      split_ifs at hx with hdvd
      have hexact := D.getDate_timestamp ts d h hdvd
      obtain rfl := Option.some.inj hx
      rw [← hexact]
      exact Int.mul_ediv_cancel _ (by decide)
  | varchar s =>
      simp only [ValueApi.day, h, Option.map_some, Option.some.injEq] at hx
      exact hx.symm
  | _ => cases hx

theorem timeOfDay_eq_some {t : Dtime} {x : Int} (h : D.getTime val = some t)
    (hx : D.timeOfDay val = some x) : x = t.micros.toInt := by
  cases val with
  | time u =>
      rw [D.getTime_time] at h
      exact Option.some.inj (hx.symm.trans (congrArg (·.map (·.micros.toInt)) h))
  | varchar s =>
      simp only [ValueApi.timeOfDay, h, Option.map_some, Option.some.injEq] at hx
      exact hx.symm
  | _ => cases hx

theorem instant_eq_some {ts : Int64} {p : Int32 × Dtime} {x : Int} (h : D.getTimestamp val = some ts)
    (hp : D.convert ts = some p) (hx : D.instant val = some x) : x = ts.toInt := by
  cases val with
  | timestamp us =>
      rw [D.getTimestamp_timestamp] at h
      exact Option.some.inj (hx.symm.trans (congrArg (·.map (·.toInt)) h))
  | date d =>
      rcases D.getTimestamp_date d ts h with hnone | heq
      · rw [hnone] at hp
        cases hp
      · rw [heq]
        exact (Option.some.inj hx).symm
  | varchar s =>
      simp only [ValueApi.instant, h, Option.map_some, Option.some.injEq] at hx
      exact hx.symm
  | _ => cases hx

/-- Only the end of the range is out of reach of the epoch. -/
theorem encodeDate_eq (d : Int32) :
    (d.toInt < 2 ^ 31 - mjdEpochToUnixEpochDays →
      ∃ n, encodeDate d = .ok n ∧ n.toInt - mjdEpochToUnixEpochDays = d.toInt) ∧
    (¬d.toInt < 2 ^ 31 - mjdEpochToUnixEpochDays → encodeDate d = .overflow) := by
  have hlo := d.le_toInt
  unfold encodeDate mjdEpochToUnixEpochDays
  constructor
  · intro h
    refine ⟨_, if_pos (by omega), ?_⟩
    rw [Int32.toInt_ofInt_of_le (by omega) (by omega)]
    omega
  · intro h
    exact if_neg (by omega)

/-- On the grid, the ticks of a time are the time. -/
theorem encodeTime_ticks {t : Dtime} (hgrid : 100 ∣ t.micros.toInt) :
    ((encodeTime t).toNat : Int) * 100 = t.micros.toInt := by
  have h0 := t.nonneg
  have h1 := t.le_day
  have hlt : t.micros.toInt.toNat / 100 < 2 ^ 32 := by omega
  rw [encodeTime, UInt32.toNat_ofNat_of_lt' hlt]
  omega

/-- The time of a timestamp on the grid is on the grid. -/
theorem convert_grid {ts : Int64} {d : Int32} {t : Dtime} (h : D.convert ts = some (d, t))
    (hgrid : 100 ∣ ts.toInt) : 100 ∣ t.micros.toInt := by
  have hsum := (D.convert_eq ts d t h).1
  unfold microsPerDay at hsum
  omega

/-- A finite timestamp's day is early enough for the epoch. -/
theorem convert_day {ts : Int64} {d : Int32} {t : Dtime} (h : D.convert ts = some (d, t)) :
    d.toInt < 2 ^ 31 - mjdEpochToUnixEpochDays := by
  have hsum := (D.convert_eq ts d t h).1
  have hnonneg := t.nonneg
  have hts := ts.toInt_lt
  unfold microsPerDay at hsum
  unfold mjdEpochToUnixEpochDays
  omega

theorem date_same_iff {d : Int32} (h : D.getDate val = some d) (hfit : d.toInt < 2 ^ 31 - mjdEpochToUnixEpochDays) :
    Same D val (.date d.toInt) ↔ ∃ x, D.day val = some x ∧ x < 2 ^ 31 - mjdEpochToUnixEpochDays := by
  show D.day val = some _ ↔ _
  constructor
  · intro hx
    exact ⟨_, hx, hfit⟩
  · rintro ⟨x, hx, -⟩
    rw [hx, day_eq_some h hx]

theorem time_same_iff {t : Dtime} (h : D.getTime val = some t) (hgrid : 100 ∣ t.micros.toInt) :
    Same D val (.time ((encodeTime t).toNat * 100)) ↔ (D.timeOfDay val).isSome := by
  show D.timeOfDay val = some _ ↔ _
  rw [encodeTime_ticks hgrid]
  exact eq_some_iff_isSome fun _ hx => timeOfDay_eq_some h hx

/-- Day and time of day add up to the timestamp again, on the grid without rounding. -/
theorem timestamp_same_iff {ts : Int64} {d : Int32} {t : Dtime} (h : D.getTimestamp val = some ts)
    (hc : D.convert ts = some (d, t)) (hgrid : 100 ∣ ts.toInt) :
    Same D val (.timestamp (d.toInt * microsPerDay + (encodeTime t).toNat * 100)) ↔ (D.instant val).isSome := by
  show D.instant val = some _ ↔ _
  rw [encodeTime_ticks (convert_grid hc hgrid), (D.convert_eq ts d t hc).1]
  exact eq_some_iff_isSome fun _ hx => instant_eq_some h hc hx

end Types

/-! ## What arrives -/

section Arrives

variable {D : ValueApi} {index : Nat} {var : Xsqlvar} {val : Value}

/-- A value that is not `NULL`, at a placeholder of one of the integer types. -/
theorem failsOrArrives_integer (hnull : ¬val.isNull = true)
    (htype : var.sqltype = .short ∨ var.sqltype = .long ∨ var.sqltype = .int64) :
    FailsOrArrives D index var val ↔ Fits D var val := by
  unfold FailsOrArrives bindInputParameter Fits
  rw [if_neg hnull]
  cases h : D.getInt64 val with
  | none => rcases htype with htype | htype | htype <;> simp [htype, converted]
  | some n =>
      rcases htype with htype | htype | htype
      · have hsame := integer_same_iff var (w := 16) (by decide) h
        rw [Scaled.received, ← Int64.toInt_toInt16] at hsame
        simpa [htype, converted, Arrives, decode] using hsame
      · have hsame := integer_same_iff var (w := 32) (by decide) h
        rw [Scaled.received, ← Int64.toInt_toInt32] at hsame
        simpa [htype, converted, Arrives, decode] using hsame
      · have hsame := integer_same_iff var (w := 64) (by decide) h
        rw [Scaled.received, Scaled.bmod_of_fits (by decide) n.le_toInt n.toInt_lt] at hsame
        simpa [htype, converted, Arrives, decode] using hsame

/-- At one of the floating-point types. -/
theorem failsOrArrives_floating (hnull : ¬val.isNull = true)
    (htype : var.sqltype = .float ∨ var.sqltype = .double ∨ var.sqltype = .dFloat) :
    FailsOrArrives D index var val ↔ Fits D var val := by
  unfold FailsOrArrives bindInputParameter Fits
  rw [if_neg hnull]
  cases h : D.getDouble val with
  | none => rcases htype with htype | htype | htype <;> simp [htype, converted]
  | some d =>
      rcases htype with htype | htype | htype
      · simpa [htype, converted, Arrives, decode] using float_same_iff h
      · simpa [htype, converted, Arrives, decode] using double_same_iff h
      · simpa [htype, converted, Arrives, decode] using double_same_iff h

/-- At a day. -/
theorem failsOrArrives_date (hnull : ¬val.isNull = true) (htype : var.sqltype = .typeDate) :
    FailsOrArrives D index var val ↔ Fits D var val := by
  unfold FailsOrArrives bindInputParameter Fits
  rw [if_neg hnull, htype]
  cases h : D.getDate val with
  | none => simp [converted]
  | some d =>
      obtain ⟨hok, hoverflow⟩ := encodeDate_eq d
      by_cases hfit : d.toInt < 2 ^ 31 - mjdEpochToUnixEpochDays
      · obtain ⟨n, hn, hday⟩ := hok hfit
        simpa [converted, hn, Arrives, decode, hday] using date_same_iff h hfit
      -- the infinite date, and those just before it
      · simp only [converted, hoverflow hfit, reduceCtorEq, false_or, false_iff]
        rintro ⟨x, hx, hlt⟩
        rw [day_eq_some h hx] at hlt
        exact hfit hlt

/-- At a time of day, or an instant, on the grid. -/
theorem failsOrArrives_ticks (hnull : ¬val.isNull = true)
    (htype : var.sqltype = .typeTime ∨ var.sqltype = .timestamp) (hgrid : OnTickGrid D var.sqltype val) :
    FailsOrArrives D index var val ↔ Fits D var val := by
  unfold FailsOrArrives bindInputParameter Fits
  rw [if_neg hnull]
  rcases htype with htype | htype
  · rw [htype] at hgrid ⊢
    cases h : D.getTime val with
    | none => simp [converted]
    | some t => simpa [converted, Arrives, decode] using time_same_iff h (hgrid t h)
  · rw [htype] at hgrid ⊢
    cases h : D.getTimestamp val with
    | none => simp [converted]
    | some ts =>
        cases hc : D.convert ts with
        | none => simp [converted, hc]
        | some p =>
            obtain ⟨d, t⟩ := p
            obtain ⟨n, hn, hday⟩ := (encodeDate_eq d).1 (convert_day hc)
            have hsame := timestamp_same_iff h hc (hgrid ts h)
            rw [← hday] at hsame
            simpa [converted, hc, encodeTimestamp, hn, Arrives, decode] using hsame

/-- At a text, or at a truth value, or at a type that the switch does not know. -/
theorem failsOrArrives_other (hnull : ¬val.isNull = true) {t : SqlType} (htype : var.sqltype = t)
    (ht : t ≠ .short ∧ t ≠ .long ∧ t ≠ .int64 ∧ t ≠ .float ∧ t ≠ .double ∧ t ≠ .dFloat ∧ t ≠ .typeDate ∧
      t ≠ .typeTime ∧ t ≠ .timestamp) : FailsOrArrives D index var val ↔ Fits D var val := by
  unfold FailsOrArrives bindInputParameter Fits
  rw [if_neg hnull, htype]
  cases t with
  | text => exact text_same_iff _ rfl var.sqllen_short var.sqlscale
  | varying => exact varying_same_iff _ rfl
  | boolean =>
      cases h : D.getBool val with
      | none => simp [converted]
      | some b => simpa [converted, Arrives, decode] using boolean_same_iff h
  | short | long | int64 | float | double | dFloat | typeDate | typeTime | timestamp => simp at ht
  | _ => exact iff_of_true trivial trivial

/-- One parameter. -/
theorem failsOrArrives_iff (hgrid : OnTickGrid D var.sqltype val) :
    FailsOrArrives D index var val ↔ val.isNull = true ∨ Fits D var val := by
  by_cases hnull : val.isNull = true
  · unfold FailsOrArrives bindInputParameter
    rw [if_pos hnull]
    exact iff_of_true hnull (.inl hnull)
  rw [or_iff_right hnull]
  cases htype : var.sqltype with
  | short => exact failsOrArrives_integer hnull (.inl htype)
  | long => exact failsOrArrives_integer hnull (.inr (.inl htype))
  | int64 => exact failsOrArrives_integer hnull (.inr (.inr htype))
  | float => exact failsOrArrives_floating hnull (.inl htype)
  | double => exact failsOrArrives_floating hnull (.inr (.inl htype))
  | dFloat => exact failsOrArrives_floating hnull (.inr (.inr htype))
  | typeDate => exact failsOrArrives_date hnull htype
  | typeTime => exact failsOrArrives_ticks hnull (.inl htype) hgrid
  | timestamp => exact failsOrArrives_ticks hnull (.inr htype) hgrid
  | _ => exact failsOrArrives_other hnull htype (by simp)

end Arrives

/-- The loop: if every parameter fails or arrives, the statement does. -/
theorem bindLoop_arrives {D : ValueApi} (pairs : List (Xsqlvar × Value)) :
    ∀ index, (∀ p ∈ pairs, ∀ i, FailsOrArrives D i p.1 p.2) →
      match bindLoop D index pairs with
      | .throws _ => True
      | .overflow => False
      | .ok cells => List.Forall₂ (fun p cell => Arrives D p.1 p.2 cell) pairs cells := by
  induction pairs with
  | nil =>
      intro index _
      exact List.Forall₂.nil
  | cons p pairs ih =>
      intro index h
      obtain ⟨var, val⟩ := p
      have hhead := h (var, val) (by simp) index
      have htail := ih (index + 1) fun q hq => h q (by simp [hq])
      unfold FailsOrArrives at hhead
      rw [bindLoop]
      cases hcell : bindInputParameter D index var val with
      | throws e => exact trivial
      | overflow => rw [hcell] at hhead; exact hhead
      | ok cell =>
          rw [hcell] at hhead
          cases hcells : bindLoop D (index + 1) pairs with
          | throws e => exact trivial
          | overflow => rw [hcells] at htail; exact htail
          | ok cells =>
              rw [hcells] at htail
              exact List.Forall₂.cons hhead htail

/-- **A parameter arrives with its value, or the bind fails, exactly when it fits**: so does a statement whose
    parameters all fit. Temporal values that are no whole number of ticks are left out. -/
theorem bindInputParameters_arrive_iff (D : ValueApi) :
    (∀ index var val, OnTickGrid D var.sqltype val →
      (FailsOrArrives D index var val ↔ val.isNull = true ∨ Fits D var val)) ∧
    ∀ described params,
      (∀ p ∈ described.zip params,
        OnTickGrid D p.1.sqltype p.2 ∧ (p.2.isNull = true ∨ Fits D p.1 p.2)) →
      match bindInputParameters D described params with
      | .throws _ => True
      | .overflow => False
      | .ok cells => List.Forall₂ (fun p cell => Arrives D p.1 p.2 cell) (described.zip params) cells := by
  refine ⟨fun index var val hgrid => failsOrArrives_iff hgrid, fun described params h => ?_⟩
  unfold bindInputParameters
  by_cases hlen : described.length ≠ params.length
  · rw [if_pos hlen]
    exact trivial
  · rw [if_neg hlen]
    exact bindLoop_arrives _ 0 fun p hp i => (failsOrArrives_iff (h p hp).1).mpr (h p hp).2

/-! ## A column narrower than the constant -/

/-- A day and a time of day for a finite timestamp. -/
def plainConvert (ts : Int64) : Option (Int32 × Dtime) :=
  if minTimestamp ≤ ts.toInt ∧ ts.toInt < 2 ^ 63 - 1 then
    some (Int32.ofInt (ts.toInt / microsPerDay),
      { micros := Int64.ofInt (ts.toInt % microsPerDay)
        nonneg := by
          rw [Int64.toInt_ofInt_of_le] <;> unfold microsPerDay <;> omega
        le_day := by
          rw [Int64.toInt_ofInt_of_le] <;> unfold microsPerDay <;> omega })
  else none

/-- The conversions that keep a value's own type, and those between integers. -/
def plainApi : ValueApi where
  toText
    | .varchar s => utf8 s
    | _ => []
  toText_varchar _ := rfl
  spells _ := none
  getInt64
    | .tinyint n => some n.toInt64
    | .smallint n => some n.toInt64
    | .integer n => some n.toInt64
    | .bigint n => some n
    | _ => none
  getInt64_nearest := by
    intro v n x hn hx
    cases v <;> simp only [reduceCtorEq, Option.some.injEq] at hn <;> subst hn <;>
      obtain rfl := Option.some.inj hx <;> exact ⟨_, rfl, by simp⟩
  getDouble
    | .double d => some d
    | _ => none
  getDouble_exact := by
    intro v d x hd hx _
    cases v <;> simp only [reduceCtorEq, Option.some.injEq] at hd
    subst hd
    exact Option.some.inj hx
  toFloat
    | .finite q _ => if h : Ieee.binary32.Represents q then .finite q h else .infinite (decide (q < 0))
    | .infinite negative => .infinite negative
    | .nan => .nan
  toFloat_exact := by
    intro d h
    cases d with
    | finite q held => simp [show Ieee.binary32.Represents q from h, Ieee.Datum.quantity]
    | infinite negative => rfl
    | nan => rfl
  getBool
    | .boolean b => some b
    | _ => none
  getBool_nonzero := by
    intro v b x hb hx
    cases v <;> simp only [reduceCtorEq, Option.some.injEq] at hb
    subst hb
    obtain rfl := Option.some.inj hx
    rename_i b
    cases b <;> decide
  getDate
    | .date d => some d
    | _ => none
  getDate_date _ := rfl
  getDate_timestamp := by simp
  getTime
    | .time t => some t
    | _ => none
  getTime_time _ := rfl
  getTimestamp
    | .timestamp ts => some ts
    | _ => none
  getTimestamp_timestamp _ := rfl
  convert := plainConvert
  convert_eq := by
    intro ts d t h
    unfold plainConvert at h
    split_ifs at h with hrange
    obtain ⟨rfl, rfl⟩ := Prod.mk.inj (Option.some.inj h)
    have hlo := ts.le_toInt
    have hhi := ts.toInt_lt
    simp only
    rw [Int32.toInt_ofInt_of_le, Int64.toInt_ofInt_of_le] <;> unfold microsPerDay <;> omega
  convert_isSome := by
    intro ts
    unfold plainConvert
    split_ifs with h
    · exact ⟨fun _ => h, fun _ => rfl⟩
    · exact ⟨fun hsome => absurd hsome (by decide), fun hrange => absurd hrange h⟩
  getTimestamp_date := by simp
  fromDatetime d t := some (Int64.ofInt (d.toInt * microsPerDay + t.micros.toInt))
  fromDatetime_eq := by
    intro d t hlo hhi
    have hmin : minTimestamp = -9223372022400000000 := rfl
    exact ⟨_, rfl, Int64.toInt_ofInt_of_le (by omega) (by omega)⟩

/-- A `BIGINT` that fits a `SMALLINT` parameter. -/
theorem bindInputParameters_arrive_iff_smallint :
    FailsOrArrives plainApi 0 { sqltype := .short } (.bigint 7) :=
  ((bindInputParameters_arrive_iff plainApi).1 0 { sqltype := .short } (.bigint 7) trivial).mpr
    (.inr (.inr ⟨7, rfl, .inr ⟨rfl, 7, rfl, by decide, by decide⟩⟩))

/-- **`65537` arrives at a `SMALLINT` parameter as `1`**: the bind does not fail. -/
theorem bindInputParameter_wraps :
    bindInputParameter plainApi 0 { sqltype := .short } (.bigint 65537) = .ok (.short 1) ∧
    ¬FailsOrArrives plainApi 0 { sqltype := .short } (.bigint 65537) := by
  have hcell : bindInputParameter plainApi 0 { sqltype := .short } (.bigint 65537) = .ok (.short 1) := rfl
  refine ⟨hcell, ?_⟩
  unfold FailsOrArrives
  rw [hcell]
  intro h
  have hnumber : some (Ieee.Quantity.finite ((65537 : Int) : ℚ)) =
      some (.finite (((1 : Int16).toInt : ℚ) * 10 ^ (0 : Int16).toInt)) := h
  have hone : (1 : Int16).toInt = 1 := by decide
  have hscale : (0 : Int16).toInt = 0 := by decide
  rw [Option.some.injEq, Ieee.Quantity.finite.injEq, hone, hscale] at hnumber
  norm_num at hnumber

end FirebirdScan
