import FirebirdScan.Client.ColumnType
import FirebirdScan.Client.Fetch
import FirebirdScan.Scanner.NoneCharset

/-!
# `Client.AppendValue` — one fetched cell into a vector (`FirebirdAppendValue`)

The writer switches on the SQL type of the column and stores an element of the layout that type asks for; it
looks at the type of the vector for `NUMERIC` columns only. The vector was made for the type that
`FirebirdToDuckDBType` declared, and the vector does not check what is stored in it.

`appendValue_agrees_iff` says for which columns the two switches agree: those whose scale the declared type
can carry.
-/

namespace FirebirdScan

/-! ## Buffers -/

/-- The SQL types the writer has no decoder for. -/
def SqlType.undecoded : SqlType → Bool
  | .array | .quad | .dec16 | .dec34 | .null | .other _ => true
  | _ => false

/-- The buffer of a fetched column that is not `NULL`, as the accessors of `FirebirdStatement` read it. Of a
    time with a zone they read the UTC part; of a BLOB, `ReadBlob` returns the content. -/
inductive Wire : SqlType → Type where
  | text (buffer : Bytes) : Wire .text
  | varying (len : UInt16) (payload : Bytes) : Wire .varying
  | short (n : Int16) : Wire .short
  | long (n : Int32) : Wire .long
  | int64 (n : Int64) : Wire .int64
  | int128 (lo : UInt64) (hi : Int64) : Wire .int128
  | float (d : Ieee.Datum Ieee.binary32) : Wire .float
  | double (d : Ieee.Datum Ieee.binary64) : Wire .double
  | dFloat (d : Ieee.Datum Ieee.binary64) : Wire .dFloat
  | boolean (b : UInt8) : Wire .boolean
  | timestamp (date : IscDate) (time : IscTime) : Wire .timestamp
  | typeDate (date : IscDate) : Wire .typeDate
  | typeTime (time : IscTime) : Wire .typeTime
  | timestampTz (date : IscDate) (time : IscTime) : Wire .timestampTz
  | timestampTzEx (date : IscDate) (time : IscTime) : Wire .timestampTzEx
  | timeTz (time : IscTime) : Wire .timeTz
  | timeTzEx (time : IscTime) : Wire .timeTzEx
  | blob (content : Bytes) : Wire .blob
  | undecoded {t : SqlType} (ht : t.undecoded = true) (buffer : Bytes) : Wire t

/-- A fetched column: the indicator may say `NULL`. -/
abbrev Fetched (t : SqlType) : Type := Option (Wire t)

/-! ## Elements -/

/-- An element as it is stored in a vector. -/
inductive Element where
  | bool (b : Bool)
  | int16 (n : Int16)
  | int32 (n : Int32)
  | int64 (n : Int64)
  | int128 (n : BitVec 128)
  | float (d : Ieee.Datum Ieee.binary32)
  | double (d : Ieee.Datum Ieee.binary64)
  | string (s : Bytes)
deriving DecidableEq

def Element.physicalType : Element → PhysicalType
  | .bool _ => .bool
  | .int16 _ => .int16
  | .int32 _ => .int32
  | .int64 _ => .int64
  | .int128 _ => .int128
  | .float _ => .float
  | .double _ => .double
  | .string _ => .varchar

/-- What the writer throws. -/
inductive AppendError where
  | io (message : Bytes)
  | conversion
deriving DecidableEq

/-- What happens to the slot of the vector. -/
inductive Appended where
  | setNull
  | element (e : Element)
  | throws (e : AppendError)
deriving DecidableEq

/-! ## Text -/

/-- The loop of `IsValidUtf8`. Every round consumes a byte, so the length is fuel enough. -/
def isValidUtf8Loop : Nat → Bytes → Bool
  | _, [] => true
  | 0, _ :: _ => false
  | fuel + 1, c :: s =>
      let n := c.toNat
      if n < 0x80 then isValidUtf8Loop fuel s
      else
        -- `want`, `min_codepoint`, and the bits of the lead byte
        let shape : Option (Nat × Nat × Nat) :=
          if n &&& 0xE0 = 0xC0 then some (1, 0x80, n &&& 0x1F)
          else if n &&& 0xF0 = 0xE0 then some (2, 0x800, n &&& 0x0F)
          else if n &&& 0xF8 = 0xF0 then some (3, 0x10000, n &&& 0x07)
          else none
        match shape with
        | none => false
        | some (want, minCodepoint, cp) =>
            match NoneCharset.continuationBytes want cp s with
            | none => false
            | some (cp, rest) =>
                if cp < minCodepoint then false
                else if cp ≥ 0xD800 ∧ cp ≤ 0xDFFF then false
                else if cp > 0x10FFFF then false
                else isValidUtf8Loop fuel rest

/-- `IsValidUtf8`. -/
def isValidUtf8 (s : Bytes) : Bool := isValidUtf8Loop s.length s

/-- The message of `TranscodeNoneCharset` in strict mode. -/
def strictMessage (colName : Bytes) : Bytes :=
  utf8 "firebird: column '" ++ colName ++ utf8 ("' has Firebird CHARACTER SET " ++
    "NONE and the row's bytes are not valid UTF-8 under strict mode. " ++
    "For legacy Brazilian / Western-European ERPs (Athenas, IBExpert " ++
    "exports, Delphi-era apps), pass none_encoding='win1252' — that " ++
    "is also the default when this option is omitted. Other choices: " ++
    "none_encoding='iso8859_1' (alias 'latin1') for pure Latin-1 " ++
    "inputs, or none_encoding='blob' to surface raw bytes. See " ++
    "README -> 'Charset handling: CHARACTER SET NONE'.")

/-- `TranscodeNoneCharset`. -/
def transcodeNoneCharset (raw : Bytes) (mode : NoneEncoding) (colName : Bytes) : Except AppendError Bytes :=
  match mode with
  | .strict => if isValidUtf8 raw = true then .ok raw else .error (.io (strictMessage colName))
  | .win1252 => .ok (NoneCharset.win1252ToUtf8 raw)
  | .iso8859_1 => .ok (NoneCharset.latin1ToUtf8 raw)
  | .blob => .ok raw

/-- The text cases: `CHARACTER SET NONE` goes through the policy, unless the vector is to take raw bytes. -/
def appendText (col : FirebirdColumnDesc) (noneEncoding : NoneEncoding) (str : Bytes) : Appended :=
  if col.characterSetId = 0 then
    if noneEncoding = .blob then .element (.string str)
    else
      match transcodeNoneCharset str noneEncoding col.name with
      | .error e => .throws e
      | .ok str => .element (.string str)
  else .element (.string str)

/-! ## The writer -/

/-- `hugeint_t`. -/
def hugeint (upper : Int64) (lower : UInt64) : BitVec 128 := upper.toBitVec ++ lower.toBitVec

/-- `dtime_tz_t(t, 0)`: the time above 24 bits for the offset, which are stored upside down. -/
def dtimeTz (t : Dtime) : Int64 := Int64.ofInt (t.micros.toInt * 2 ^ 24 + (16 * 60 * 60 - 1))

/-- `Timestamp::FromDatetime` of a fetched day and time. -/
def appendTimestamp (D : FetchApi) (date : IscDate) (time : IscTime) : Appended :=
  match appendValue D (.timestamp date time) with
  | none => .throws .conversion
  | some (.timestamp micros) => .element (.int64 micros)

/-- The switch of `FirebirdAppendValue`, on a cell that is not `NULL`. -/
def appendWire (D : FetchApi) (col : FirebirdColumnDesc) (dstType : LogicalType)
    (noneEncoding : NoneEncoding) {t : SqlType} : Wire t → Appended
  | .text buffer => appendText col noneEncoding (getText (.text buffer col.sqllen))
  | .varying len payload => appendText col noneEncoding (getText (.varying len payload))
  -- a `DECIMAL` of up to 4, or 9, digits has the layout of the plain integer
  | .short n => .element (.int16 n)
  | .long n => .element (.int32 n)
  | .int64 n =>
      if dstType.id = .decimal ∧ dstType.internalType = some .int128 then
        .element (.int128 (hugeint (if n < 0 then -1 else 0) n.toUInt64))
      else .element (.int64 n)
  | .float d => .element (.float d)
  | .double d => .element (.double d)
  | .dFloat d => .element (.double d)
  | .boolean b => .element (.bool (b ≠ 0))
  | .timestamp date time => appendTimestamp D date time
  | .typeDate date => .element (.int32 (fetchDate D date))
  | .typeTime time => .element (.int64 (fetchTime time).micros)
  | .int128 lo hi => .element (.int128 (hugeint hi lo))
  | .timestampTz date time => appendTimestamp D date time
  | .timestampTzEx date time => appendTimestamp D date time
  | .timeTz time => .element (.int64 (dtimeTz (fetchTime time)))
  | .timeTzEx time => .element (.int64 (dtimeTz (fetchTime time)))
  | .blob content =>
      if col.sqlsubtype = 1 then appendText col noneEncoding content else .element (.string content)
  | .undecoded _ _ => .setNull

/-- `FirebirdAppendValue`. -/
def firebirdAppendValue (D : FetchApi) (col : FirebirdColumnDesc) (cell : Fetched col.sqltype)
    (dstType : LogicalType) (noneEncoding : NoneEncoding) : Appended :=
  match cell with
  | none => .setNull
  | some wire => appendWire D col dstType noneEncoding wire

/-! ## Reading back -/

/-- The integer in a buffer of an integer type. -/
def Wire.raw {t : SqlType} : Wire t → Option Int
  | .short n => some n.toInt
  | .long n => some n.toInt
  | .int64 n => some n.toInt
  | .int128 lo hi => some (hi.toInt * 2 ^ 64 + lo.toNat)
  | _ => none

/-- The number a buffer stands for in a column of the given scale, by Firebird's layout. -/
def Wire.number {t : SqlType} (scale : Int16) (cell : Wire t) : Option Ieee.Quantity :=
  match cell with
  | .float d => some d.quantity
  | .double d => some d.quantity
  | .dFloat d => some d.quantity
  | cell => cell.raw.map fun raw => .finite (raw * 10 ^ scale.toInt)

/-- The integer an element holds. -/
def Element.integer : Element → Option Int
  | .int16 n => some n.toInt
  | .int32 n => some n.toInt
  | .int64 n => some n.toInt
  | .int128 n => some n.toInt
  | _ => none

/-- The number DuckDB reads from an element of a vector of the given type. -/
def Element.readAs (type : LogicalType) (e : Element) : Option Ieee.Quantity :=
  if type.internalType = some e.physicalType then
    match e with
    | .float d => some d.quantity
    | .double d => some d.quantity
    | e => e.integer.map fun n => .finite (if type.id = .decimal then n / 10 ^ type.scale else n)
  else none

/-- What is written for the cell is an element of the vector, and a number is read back as it was sent. -/
structure Agrees (D : FetchApi) (col : FirebirdColumnDesc) (type : LogicalType) (noneEncoding : NoneEncoding)
    {t : SqlType} (cell : Wire t) : Prop where
  layout : ∀ e, appendWire D col type noneEncoding cell = .element e →
    type.internalType = some e.physicalType
  value : ∀ x, cell.number col.sqlscale = some x →
    ∃ e, appendWire D col type noneEncoding cell = .element e ∧ e.readAs type = some x

/-- The digits of the `DECIMAL` that carries a scaled integer of the SQL type. -/
def decimalDigits (numericWidenInt64 : Bool) : SqlType → Option Nat
  | .short => some 4
  | .long => some 9
  | .int64 => some (if numericWidenInt64 then 38 else 18)
  | .int128 => some 38
  | _ => none

/-- An integer column has a scale that the `DECIMAL` can carry. -/
def ScaleCarried (col : FirebirdColumnDesc) (numericWidenInt64 : Bool) : Prop :=
  ∀ digits, decimalDigits numericWidenInt64 col.sqltype = some digits →
    -(digits : Int) ≤ col.sqlscale.toInt ∧ col.sqlscale.toInt ≤ 0

/-! ## Which columns agree -/

theorem hugeint_toInt (upper : Int64) (lower : UInt64) :
    (hugeint upper lower).toInt = upper.toInt * 2 ^ 64 + lower.toNat := by
  have h := BitVec.toInt_append (x := upper.toBitVec) (y := lower.toBitVec)
  rw [if_neg (by decide), Int64.toInt_toBitVec, UInt64.toNat_toBitVec, mul_comm] at h
  exact h

/-- The widening of an `int64_t` keeps its value. -/
theorem hugeint_widen (n : Int64) : (hugeint (if n < 0 then -1 else 0) n.toUInt64).toInt = n.toInt := by
  have hlow : n.toInt = n.toUInt64.toNat ∨ n.toInt + 2 ^ 64 = n.toUInt64.toNat := by
    have h := BitVec.toInt_eq_toNat_cond n.toBitVec
    rw [Int64.toInt_toBitVec] at h
    show n.toInt = n.toBitVec.toNat ∨ n.toInt + 2 ^ 64 = n.toBitVec.toNat
    split_ifs at h <;> omega
  have hlt := n.toUInt64.toNat_lt
  have hmin := n.minValue_le_toInt
  have hmax := n.toInt_le
  have hzero : (0 : Int64).toInt = 0 := rfl
  have hone : (-1 : Int64).toInt = -1 := rfl
  rw [hugeint_toInt]
  by_cases h : n < 0
  · rw [if_pos h, hone]
    rw [Int64.lt_iff_toInt_lt, hzero] at h
    omega
  · rw [if_neg h, hzero]
    rw [Int64.lt_iff_toInt_lt, hzero] at h
    omega

/-- A negative scale, as the divisor it is in a `DECIMAL`. -/
theorem scaled_eq (n : Int) {s : Int} (hs : s ≤ 0) : (n : ℚ) / 10 ^ (-s).toNat = n * 10 ^ s := by
  obtain ⟨k, rfl⟩ : ∃ k : Nat, s = -(k : Int) := ⟨(-s).toNat, by omega⟩
  rw [neg_neg, Int.toNat_natCast, zpow_neg, zpow_natCast, div_eq_mul_inv]

/-- Integers of the type are scaled by `s`. -/
def CarriesScale (type : LogicalType) (s : Int) : Prop :=
  if type.id = .decimal then s ≤ 0 ∧ type.scale = (-s).toNat else s = 0

theorem scaledIntegerToDecimal_carries {precisionHint : Nat} {sqlscale : Int16} {widenInt64 : Bool}
    (hlo : -(scaledWidth precisionHint widenInt64 : Int) ≤ sqlscale.toInt) (hhi : sqlscale.toInt ≤ 0) :
    CarriesScale (scaledIntegerToDecimal precisionHint sqlscale widenInt64) sqlscale.toInt := by
  by_cases h : sqlscale = 0
  · subst h
    unfold scaledIntegerToDecimal CarriesScale
    rw [if_pos rfl]
    split
    · exact rfl
    · exact rfl
    · exact rfl
  · have hne : sqlscale.toInt ≠ 0 := fun h' => h (sqlscale_eq_zero.mpr h')
    rw [scaledIntegerToDecimal_carried hlo (by omega), CarriesScale, if_pos rfl]
    exact ⟨hhi, rfl⟩

/-- An integer that is stored whole in an element of the declared layout is read back under the scale. -/
theorem readAs_integer {type : LogicalType} {e : Element} {n s : Int} (he : e.integer = some n)
    (hlayout : type.internalType = some e.physicalType) (hscale : CarriesScale type s) :
    e.readAs type = some (.finite (n * 10 ^ s)) := by
  have hread : e.readAs type =
      e.integer.map fun n => .finite (if type.id = .decimal then n / 10 ^ type.scale else n) := by
    unfold Element.readAs
    rw [if_pos hlayout]
    cases e with
    | float d => cases he
    | double d => cases he
    | _ => rfl
  rw [hread, he, Option.map_some]
  unfold CarriesScale at hscale
  by_cases hdec : type.id = .decimal
  · rw [if_pos hdec] at hscale
    rw [if_pos hdec, hscale.2, scaled_eq n hscale.1]
  · rw [if_neg hdec] at hscale
    rw [if_neg hdec, hscale, zpow_zero, mul_one]

section Cell

variable {D : FetchApi} {col : FirebirdColumnDesc} {type : LogicalType} {noneEncoding : NoneEncoding}
  {t : SqlType} {cell : Wire t}

/-- A cell whose element is known. -/
theorem agrees_of_element {e : Element} (happend : appendWire D col type noneEncoding cell = .element e)
    (hlayout : type.internalType = some e.physicalType)
    (hvalue : ∀ x, cell.number col.sqlscale = some x → e.readAs type = some x) :
    Agrees D col type noneEncoding cell where
  layout := fun e' he' => by
    rw [happend] at he'
    obtain rfl := Appended.element.inj he'
    exact hlayout
  value := fun x hx => ⟨e, happend, hvalue x hx⟩

/-- An integer cell. -/
theorem agrees_of_integer {e : Element} {n : Int}
    (happend : appendWire D col type noneEncoding cell = .element e) (he : e.integer = some n)
    (hnumber : cell.number col.sqlscale = some (.finite (n * 10 ^ col.sqlscale.toInt)))
    (hlayout : type.internalType = some e.physicalType) (hscale : CarriesScale type col.sqlscale.toInt) :
    Agrees D col type noneEncoding cell := by
  refine agrees_of_element happend hlayout fun x hx => ?_
  rw [hnumber] at hx
  rw [← hx]
  exact readAs_integer he hlayout hscale

/-- A cell that is no number agrees if all that can be written is of the declared layout. -/
theorem agrees_of_layout (hnumber : cell.number col.sqlscale = none)
    (hlayout : ∀ e, appendWire D col type noneEncoding cell = .element e →
      type.internalType = some e.physicalType) :
    Agrees D col type noneEncoding cell where
  layout := hlayout
  value := fun x hx => by
    rw [hnumber] at hx
    cases hx

/-- Text is stored as a string, if at all. -/
theorem appendText_element {str : Bytes} {e : Element} (h : appendText col noneEncoding str = .element e) :
    ∃ s, e = .string s := by
  unfold appendText at h
  split_ifs at h
  · exact ⟨str, (Appended.element.inj h).symm⟩
  · cases htrans : transcodeNoneCharset str noneEncoding col.name with
    | error err =>
        rw [htrans] at h
        cases h
    | ok s =>
        rw [htrans] at h
        exact ⟨s, (Appended.element.inj h).symm⟩
  · exact ⟨str, (Appended.element.inj h).symm⟩

theorem appendTimestamp_element {date : IscDate} {time : IscTime} {e : Element}
    (h : appendTimestamp D date time = .element e) : ∃ n, e = .int64 n := by
  unfold appendTimestamp at h
  cases hts : appendValue D (.timestamp date time) with
  | none =>
      rw [hts] at h
      cases h
  | some ts =>
      rw [hts] at h
      cases ts with
      | timestamp micros => exact ⟨micros, (Appended.element.inj h).symm⟩

end Cell

/-- The two types a column may be declared with: a view's columns get the second one. -/
def DeclaredType (col : FirebirdColumnDesc) (noneEncoding : NoneEncoding) (numericWidenInt64 : Bool)
    (type : LogicalType) : Prop :=
  type = columnType col noneEncoding numericWidenInt64 ∨ type = firebirdToDuckDBType col numericWidenInt64

theorem DeclaredType.eq {col : FirebirdColumnDesc} {noneEncoding : NoneEncoding} {widen : Bool}
    {type : LogicalType} (h : DeclaredType col noneEncoding widen type) :
    type = firebirdToDuckDBType col widen ∨ type = ⟨.blob, 0, 0⟩ ∧ col.isNoneText = true := by
  rcases h with rfl | rfl
  · unfold columnType
    split_ifs with hnone
    · exact .inr ⟨rfl, hnone.2⟩
    · exact .inl rfl
  · exact .inl rfl

/-- A column that is not text has one declared type. -/
theorem DeclaredType.of_not_noneText {col : FirebirdColumnDesc} {noneEncoding : NoneEncoding} {widen : Bool}
    {type : LogicalType} (h : DeclaredType col noneEncoding widen type) (hcol : col.isNoneText = false) :
    type = firebirdToDuckDBType col widen := by
  rcases h.eq with h | ⟨-, hnone⟩
  · exact h
  · rw [hcol] at hnone
    cases hnone

/-- A column that `FirebirdToDuckDBType` declares as text or bytes holds strings. -/
theorem DeclaredType.varchar {col : FirebirdColumnDesc} {noneEncoding : NoneEncoding} {widen : Bool}
    {type : LogicalType} (h : DeclaredType col noneEncoding widen type)
    (hcol : (firebirdToDuckDBType col widen).internalType = some .varchar) :
    type.internalType = some .varchar := by
  rcases h.eq with rfl | ⟨rfl, -⟩
  · exact hcol
  · exact rfl

section Columns

variable {D : FetchApi} {col : FirebirdColumnDesc} {noneEncoding : NoneEncoding} {widen : Bool}
  {type : LogicalType}

/-- What an integer column's type is, scale aside. -/
theorem scaledInteger_layout {precisionHint : Nat} {sqlscale : Int16} {widenInt64 : Bool}
    (hlo : -(scaledWidth precisionHint widenInt64 : Int) ≤ sqlscale.toInt) (hhi : sqlscale.toInt ≤ 0) :
    scaledIntegerToDecimal precisionHint sqlscale widenInt64 = scaledIntegerToDecimal precisionHint 0 false ∨
    (scaledIntegerToDecimal precisionHint sqlscale widenInt64).id = .decimal ∧
      (scaledIntegerToDecimal precisionHint sqlscale widenInt64).width = scaledWidth precisionHint widenInt64 := by
  by_cases h : sqlscale = 0
  · exact .inl (scaledIntegerToDecimal_zero precisionHint widenInt64 h)
  · have hne : sqlscale.toInt ≠ 0 := fun h' => h (sqlscale_eq_zero.mpr h')
    rw [scaledIntegerToDecimal_carried hlo (by omega)]
    exact .inr ⟨rfl, rfl⟩

/-- A `DECIMAL` and a plain integer of the same hint have one layout, the widened one apart. -/
theorem scaledInteger_internalType {precisionHint : Nat} {sqlscale : Int16} {widenInt64 : Bool}
    (hlo : -(scaledWidth precisionHint widenInt64 : Int) ≤ sqlscale.toInt) (hhi : sqlscale.toInt ≤ 0)
    {layout : PhysicalType} (hplain : (scaledIntegerToDecimal precisionHint 0 false).internalType = some layout)
    (hdec : LogicalType.internalType ⟨.decimal, scaledWidth precisionHint widenInt64, 0⟩ = some layout) :
    (scaledIntegerToDecimal precisionHint sqlscale widenInt64).internalType = some layout := by
  rcases scaledInteger_layout hlo hhi with h | ⟨hid, hwidth⟩
  · rw [h]
    exact hplain
  · rw [← hdec]
    unfold LogicalType.internalType
    rw [hid, hwidth]

/-- The `int64_t` cell: the widened `DECIMAL` is the one case that is stored as a `hugeint_t`. -/
theorem appendWire_int64 (D : FetchApi) (col : FirebirdColumnDesc) (noneEncoding : NoneEncoding) {scale : Int16}
    {widenInt64 : Bool} (hlo : -(scaledWidth 8 widenInt64 : Int) ≤ scale.toInt) (hhi : scale.toInt ≤ 0)
    (n : Int64) :
    ∃ e, appendWire D col (scaledIntegerToDecimal 8 scale widenInt64) noneEncoding (.int64 n) = .element e ∧
      e.integer = some n.toInt ∧
      (scaledIntegerToDecimal 8 scale widenInt64).internalType = some e.physicalType := by
  rcases scaledInteger_layout hlo hhi with h | ⟨hid, hwidth⟩
  · rw [h]
    exact ⟨.int64 n, rfl, rfl, rfl⟩
  · have hlayout : (scaledIntegerToDecimal 8 scale widenInt64).internalType =
        some (if widenInt64 then .int128 else .int64) := by
      unfold LogicalType.internalType
      rw [hid, hwidth]
      cases widenInt64 <;> rfl
    unfold appendWire
    rw [hlayout, hid]
    cases widenInt64 with
    | true =>
        refine ⟨.int128 (hugeint (if n < 0 then -1 else 0) n.toUInt64), rfl, ?_, rfl⟩
        exact congrArg some (hugeint_widen n)
    | false => exact ⟨.int64 n, rfl, rfl, rfl⟩

/-- The declared type of an `INT128` column whose scale is carried. -/
theorem int128_carried (hcol : col.sqltype = .int128) (hlo : -38 ≤ col.sqlscale.toInt)
    (hhi : col.sqlscale.toInt ≤ 0) :
    (firebirdToDuckDBType col widen).internalType = some .int128 ∧
      CarriesScale (firebirdToDuckDBType col widen) col.sqlscale.toInt := by
  rw [firebirdToDuckDBType, hcol]
  by_cases h : col.sqlscale = 0
  · rw [if_pos h, sqlscale_eq_zero.mp h]
    exact ⟨rfl, rfl⟩
  · have hscale : -col.sqlscale.toInt = ((-col.sqlscale.toInt).toNat : Int) := by omega
    rw [if_neg h, if_neg (by omega), hscale, show (38 : Int) = (38 : Nat) from rfl,
      decimal_eq (by omega) (by omega)]
    exact ⟨rfl, hhi, rfl⟩

/-- **Every cell agrees**, in a column whose scale is carried. -/
theorem appendWire_agrees (hscale : ScaleCarried col widen) (htype : DeclaredType col noneEncoding widen type)
    {t : SqlType} (ht : col.sqltype = t) (cell : Wire t) : Agrees D col type noneEncoding cell := by
  have hdecl : t ≠ .text → t ≠ .varying → t ≠ .blob → type = firebirdToDuckDBType col widen :=
    fun h1 h2 h3 => htype.of_not_noneText (by simp [FirebirdColumnDesc.isNoneText, ht, h1, h2, h3])
  cases cell with
  | text | varying =>
      refine agrees_of_layout rfl fun e he => ?_
      obtain ⟨s, rfl⟩ := appendText_element he
      exact htype.varchar (by rw [firebirdToDuckDBType, ht]; rfl)
  | blob content =>
      -- text or bytes by the subtype, but a string in either case
      have hvarchar : type.internalType = some .varchar :=
        htype.varchar (by rw [firebirdToDuckDBType, ht]; dsimp only; split_ifs <;> rfl)
      refine agrees_of_layout rfl fun e he => ?_
      change (if col.sqlsubtype = 1 then appendText col noneEncoding content else .element (.string content)) =
        .element e at he
      split_ifs at he
      · obtain ⟨s, rfl⟩ := appendText_element he
        exact hvarchar
      · obtain rfl := Appended.element.inj he
        exact hvarchar
  | undecoded hu buffer => exact agrees_of_layout rfl fun e he => by cases he
  | short n =>
      -- a scaled integer: the descriptor says its width and scale, and so does the type
      obtain rfl := hdecl (by decide) (by decide) (by decide)
      obtain ⟨hlo, hhi⟩ := hscale (scaledWidth 2 false) (by rw [ht]; rfl)
      rw [firebirdToDuckDBType, ht]
      exact agrees_of_integer rfl rfl rfl (scaledInteger_internalType hlo hhi rfl rfl)
        (scaledIntegerToDecimal_carries hlo hhi)
  | long n =>
      obtain rfl := hdecl (by decide) (by decide) (by decide)
      obtain ⟨hlo, hhi⟩ := hscale (scaledWidth 4 false) (by rw [ht]; rfl)
      rw [firebirdToDuckDBType, ht]
      exact agrees_of_integer rfl rfl rfl (scaledInteger_internalType hlo hhi rfl rfl)
        (scaledIntegerToDecimal_carries hlo hhi)
  | int64 n =>
      obtain rfl := hdecl (by decide) (by decide) (by decide)
      obtain ⟨hlo, hhi⟩ := hscale (scaledWidth 8 widen) (by rw [ht]; rfl)
      rw [firebirdToDuckDBType, ht]
      obtain ⟨e, happend, he, hlayout⟩ := appendWire_int64 D col noneEncoding hlo hhi n
      exact agrees_of_integer happend he rfl hlayout (scaledIntegerToDecimal_carries hlo hhi)
  | int128 lo hi =>
      obtain rfl := hdecl (by decide) (by decide) (by decide)
      obtain ⟨hlo, hhi⟩ := hscale 38 (by rw [ht]; rfl)
      obtain ⟨hlayout, hcarries⟩ := @int128_carried col widen ht hlo hhi
      exact agrees_of_integer rfl (congrArg some (hugeint_toInt hi lo)) rfl hlayout hcarries
  | timestamp | timestampTz | timestampTzEx =>
      obtain rfl := hdecl (by decide) (by decide) (by decide)
      refine agrees_of_layout rfl fun e he => ?_
      obtain ⟨n, rfl⟩ := appendTimestamp_element he
      rw [firebirdToDuckDBType, ht]
      rfl
  | float | double | dFloat =>
      obtain rfl := hdecl (by decide) (by decide) (by decide)
      rw [firebirdToDuckDBType, ht]
      exact agrees_of_element rfl rfl fun x hx => hx
  | _ =>
      obtain rfl := hdecl (by decide) (by decide) (by decide)
      rw [firebirdToDuckDBType, ht]
      exact agrees_of_element rfl rfl fun x hx => by cases hx

/-- An integer declared `DOUBLE` is stored over the wrong layout. -/
theorem not_agrees_double {t : SqlType} {cell : Wire t} {e : Element} {n : Int}
    (happend : appendWire D col ⟨.double, 0, 0⟩ noneEncoding cell = .element e) (he : e.integer = some n) :
    ¬Agrees D col ⟨.double, 0, 0⟩ noneEncoding cell := by
  intro h
  have hlayout := h.layout e happend
  cases e with
  | float d => cases he
  | double d => cases he
  | _ => cases hlayout

/-- `DECIMAL` has no positive scale: one unit is not read back as `10 ^ s`. -/
theorem not_agrees_positive_scale {cell : Wire .int128} {width scale : Int} (hcell : cell.raw = some 1)
    (hpos : 0 < col.sqlscale.toInt) : ¬Agrees D col (decimal width scale) noneEncoding cell := by
  cases cell with
  | undecoded hu buffer => cases hu
  | int128 lo hi =>
      intro h
      have hone : (hugeint hi lo).toInt = 1 := (hugeint_toInt hi lo).trans (Option.some.inj hcell)
      have hnumber : (Wire.int128 lo hi).number col.sqlscale = some (.finite ((1 : Int) * 10 ^ col.sqlscale.toInt)) :=
        congrArg (Option.map fun raw : Int => Ieee.Quantity.finite (raw * 10 ^ col.sqlscale.toInt)) hcell
      obtain ⟨e, happend, hread⟩ := h.value _ hnumber
      obtain rfl := Appended.element.inj happend
      unfold Element.readAs at hread
      rw [if_pos (h.layout _ rfl)] at hread
      have hquot : ((hugeint hi lo).toInt : ℚ) / 10 ^ (decimal width scale).scale =
          (1 : Int) * 10 ^ col.sqlscale.toInt := Ieee.Quantity.finite.inj (Option.some.inj hread)
      rw [hone] at hquot
      have hsmall : ((1 : Int) : ℚ) / 10 ^ (decimal width scale).scale ≤ 1 := by
        rw [Int.cast_one]
        exact div_le_one_of_le₀ (one_le_pow₀ (by norm_num)) (by positivity)
      have hlarge : (1 : ℚ) < (1 : Int) * 10 ^ col.sqlscale.toInt := by
        rw [Int.cast_one, one_mul]
        exact one_lt_zpow₀ (by norm_num) hpos
      rw [hquot] at hsmall
      exact absurd hlarge (not_lt.mpr hsmall)

/-- Where the scale is not carried, the cell `1` does not agree. -/
theorem not_agrees_of_not_carried (h : ¬ScaleCarried col widen) :
    ∃ cell : Wire col.sqltype, ¬Agrees D col (firebirdToDuckDBType col widen) noneEncoding cell := by
  obtain ⟨name, sqltype, sqlsubtype, sqlscale, sqllen, characterSetId, nullable⟩ := col
  simp only [ScaleCarried, not_forall] at h
  obtain ⟨digits, hdigits, hscale⟩ := h
  cases sqltype with
  | short =>
      obtain rfl := Option.some.inj hdigits
      have hdegrades : ¬(-(scaledWidth 2 false : Int) ≤ sqlscale.toInt ∧ sqlscale.toInt ≤ 0) := hscale
      refine ⟨.short 1, ?_⟩
      rw [firebirdToDuckDBType, scaledIntegerToDecimal_degrades hdegrades]
      exact not_agrees_double rfl rfl
  | long =>
      obtain rfl := Option.some.inj hdigits
      have hdegrades : ¬(-(scaledWidth 4 false : Int) ≤ sqlscale.toInt ∧ sqlscale.toInt ≤ 0) := hscale
      refine ⟨.long 1, ?_⟩
      rw [firebirdToDuckDBType, scaledIntegerToDecimal_degrades hdegrades]
      exact not_agrees_double rfl rfl
  | int64 =>
      obtain rfl := Option.some.inj hdigits
      have hdegrades : ¬(-(scaledWidth 8 widen : Int) ≤ sqlscale.toInt ∧ sqlscale.toInt ≤ 0) := hscale
      refine ⟨.int64 1, ?_⟩
      rw [firebirdToDuckDBType, scaledIntegerToDecimal_degrades hdegrades]
      exact not_agrees_double rfl rfl
  | int128 =>
      obtain rfl := Option.some.inj hdigits
      have hne : sqlscale ≠ 0 := fun hs => hscale (by rw [sqlscale_eq_zero.mp hs]; omega)
      refine ⟨.int128 1 0, ?_⟩
      rw [firebirdToDuckDBType]
      by_cases hdeep : -sqlscale.toInt > 38
      · rw [if_neg hne, if_pos hdeep]
        exact not_agrees_double rfl rfl
      · rw [if_neg hne, if_neg hdeep]
        exact not_agrees_positive_scale rfl (show 0 < sqlscale.toInt by omega)
  | _ => cases hdigits

end Columns

/-- **The mapping and the writer agree on exactly the columns whose scale is carried**: those that are not
    integers, and the integers whose scale is between minus the digits of their `DECIMAL` and zero. Under
    either of the types the column may be declared with, whatever is stored in the vector then has the layout
    of the vector's elements, and a number is read back as the number in the buffer. -/
theorem appendValue_agrees_iff (D : FetchApi) (col : FirebirdColumnDesc) (noneEncoding : NoneEncoding)
    (widen : Bool) :
    (∀ type, DeclaredType col noneEncoding widen type →
      ∀ cell : Wire col.sqltype, Agrees D col type noneEncoding cell) ↔ ScaleCarried col widen := by
  constructor
  · intro h
    by_contra hscale
    obtain ⟨cell, hcell⟩ := @not_agrees_of_not_carried D col noneEncoding widen hscale
    exact hcell (h _ (.inr rfl) cell)
  · intro hscale type htype cell
    exact appendWire_agrees hscale htype rfl cell

/-- The product of two `NUMERIC(18, 10)` columns, as the catalog describes it: a `BIGINT` of scale `-20`. -/
def productColumn : FieldRow where
  name := utf8 "AMOUNT"
  fieldType := 16
  scale := -20

/-- **The writer does not know of the degrade to `DOUBLE`**: it stores the `int64_t` of such a column in the
    vector of doubles. -/
theorem productColumn_disagrees :
    (mapFirebirdColumn productColumn .win1252 false).2 = ⟨.double, 0, 0⟩ ∧
    (∀ D, firebirdAppendValue D productColumn.desc (some (.int64 150)) ⟨.double, 0, 0⟩ .win1252 =
      .element (.int64 150)) ∧
    ¬∃ D, ∀ type, DeclaredType productColumn.desc .win1252 false type →
      ∀ cell : Wire productColumn.desc.sqltype, Agrees D productColumn.desc type .win1252 cell := by
  refine ⟨rfl, fun D => rfl, fun ⟨D, h⟩ => ?_⟩
  have hlayout := (h ⟨.double, 0, 0⟩ (.inr rfl) (.int64 150)).layout (.int64 150) rfl
  cases hlayout

end FirebirdScan
