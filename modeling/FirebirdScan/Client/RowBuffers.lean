import FirebirdScan.Client.AppendValue
import FirebirdScan.Lib.Memory

/-!
# `Client.RowBuffers` — the buffers of a cursor (`AllocateBuffers`, `Fetch`, and the accessors)

`Prepare` has the server describe the columns, and reserves a buffer for each. A fetch has libfbclient copy a row
into the buffers, and `FirebirdAppendValue` reads each cell with the accessor of its type. This is the level below
`Wire`: a cell there is what the accessors make of the bytes here.

- `readAs_isSome_iff` says when the accessors stay within the buffers.
- `fetchAll_stored` is the round trip, over a run of fetches: what the server stored is what is read, exactly if
  libfbclient stays within the buffers.
-/

namespace FirebirdScan

open Memory Clumplets

/-! ## The source -/

/-- `XSQLVAR`, as the server describes an output column. -/
structure XSqlVar where
  aliasname : Bytes
  sqltype : Int16
  sqlsubtype : Int16 := 0
  sqlscale : Int16 := 0
  sqllen : Int16 := 0

/-- The base type: the low bit of the code says whether the column is nullable. -/
def XSqlVar.base (v : XSqlVar) : SqlType :=
  (sqlTypeCodes.lookup (v.sqltype &&& ~~~1)).getD (.other (v.sqltype &&& ~~~1))

/-- The descriptor that `AllocateBuffers` makes. A text type has its character set in the low byte of the subtype. -/
def describeColumn (v : XSqlVar) : FirebirdColumnDesc where
  name := PadSpace.rtrim 0x20 v.aliasname
  sqltype := v.base
  sqlsubtype := v.sqlsubtype
  sqlscale := v.sqlscale
  sqllen := v.sqllen
  characterSetId := if v.base = .text ∨ v.base = .varying then v.sqlsubtype &&& 0xFF else -1
  nullable := v.sqltype &&& 1 ≠ 0

/-- `bufsz` of `AllocateBuffers`. -/
def bufferSize (sqltype : SqlType) (sqllen : Int16) : Nat :=
  match sqltype with
  | .text => sizeT sqllen
  | .varying => (sizeT sqllen + 2) % 2 ^ 64
  | .short => 2
  | .long => 4
  | .int64 => 8
  | .float => 4
  | .double | .dFloat => 8
  | .timestamp => 8
  | .typeDate => 4
  | .typeTime => 4
  | .blob | .array | .quad => 8
  | .boolean => 1
  | .int128 => 16
  | .timestampTz => 8 + 2
  | .timestampTzEx => 8 + 2 + 4
  | .timeTz => 4 + 2
  | .timeTzEx => 4 + 2 + 4
  | .dec16 => 8
  | .dec34 => 16
  | .null | .other _ => if 0 < sqllen then sizeT sqllen else 8

/-- The buffer of a column. -/
def FirebirdColumnDesc.bufferSize (c : FirebirdColumnDesc) : Nat := FirebirdScan.bufferSize c.sqltype c.sqllen

/-- What a `FirebirdStatement` has of a row. -/
structure RowBuffers where
  columns : List FirebirdColumnDesc
  buffers : List Bytes
  indicators : List Int16
  rowWidthBytes : Nat
  bytesRead : Nat := 0

/-- `AllocateBuffers`. -/
def allocateBuffers (vars : List XSqlVar) : RowBuffers where
  columns := vars.map describeColumn
  buffers := vars.map fun v => List.replicate (describeColumn v).bufferSize 0
  indicators := vars.map fun _ => 0
  rowWidthBytes := (vars.map fun v => (describeColumn v).bufferSize).sum

/-- What the accessors return for a cell. A BLOB is read by its id. -/
inductive RawCell where
  | text (s : Bytes)
  | short (n : Int16)
  | long (n : Int32)
  | int64 (n : Int64)
  | int128 (lo : UInt64) (hi : Int64)
  | float (d : Ieee.Datum Ieee.binary32)
  | double (d : Ieee.Datum Ieee.binary64)
  | bool (b : Bool)
  | timestamp (date : Int32) (time : UInt32)
  | date (n : Int32)
  | time (n : UInt32)
  | blob (id : Bytes)
  | unread
deriving DecidableEq

/-- `GetDate` and the days of `GetTimestamp`. -/
def getDate (buffer : Bytes) : Option Int32 := (peekNat buffer 0 4).map fun n => (UInt32.ofNat n).toInt32

/-- `GetTime`, and with an offset the ticks of `GetTimestamp`. -/
def getTime (buffer : Bytes) (offset : Nat) : Option UInt32 := (peekNat buffer offset 4).map UInt32.ofNat

/-- `GetTimestamp` and `GetTimestampTzUtc`. -/
def getTimestamp (buffer : Bytes) : Option RawCell := do
  let date ← getDate buffer
  let time ← getTime buffer 4
  some (.timestamp date time)

/-- The accessor that `FirebirdAppendValue` calls for the type. -/
def readAs (sqltype : SqlType) (sqllen : Int16) (buffer : Bytes) : Option RawCell :=
  match sqltype with
  | .varying => do
      let len ← peekNat buffer 0 2
      (peek buffer 2 len).map .text
  | .text => (peek buffer 0 (sizeT sqllen)).map fun p => .text (p.take (trimmedLength p (sizeT sqllen)))
  | .short => (peekNat buffer 0 2).map fun n => .short (UInt16.ofNat n).toInt16
  | .long => (peekNat buffer 0 4).map fun n => .long (UInt32.ofNat n).toInt32
  | .int64 => (peekNat buffer 0 8).map fun n => .int64 (UInt64.ofNat n).toInt64
  | .int128 => do
      let lo ← peekNat buffer 0 8
      let hi ← peekNat buffer 8 8
      some (.int128 (UInt64.ofNat lo) (UInt64.ofNat hi).toInt64)
  | .float => (peekNat buffer 0 4).map fun n => .float (Ieee.single.read n)
  | .double | .dFloat => (peekNat buffer 0 8).map fun n => .double (Ieee.double.read n)
  | .boolean => (peekNat buffer 0 1).map fun n => .bool (n ≠ 0)
  | .timestamp | .timestampTz | .timestampTzEx => getTimestamp buffer
  | .typeDate => (getDate buffer).map .date
  | .typeTime | .timeTz | .timeTzEx => (getTime buffer 0).map .time
  | .blob => (peek buffer 0 8).map .blob
  | .array | .quad | .dec16 | .dec34 | .null | .other _ => some .unread

/-- A cell: `NULL` by its indicator, or what the accessor returns. -/
def readCell (c : FirebirdColumnDesc) (indicator : Int16) (buffer : Bytes) : Option (Option RawCell) :=
  if indicator = -1 then some none else (readAs c.sqltype c.sqllen buffer).map some

/-- The row that is in the buffers. -/
def readRow : List FirebirdColumnDesc → List Bytes → List Int16 → Option (List (Option RawCell))
  | [], [], [] => some []
  | c :: cs, b :: bs, i :: is => do
      let cell ← readCell c i b
      let cells ← readRow cs bs is
      some (cell :: cells)
  | _, _, _ => none

/-- A call of `isc_dsql_fetch`: the indicator and the bytes of every column, the end of the rows, or an error. -/
inductive FetchCall where
  | row (cells : List (Int16 × Bytes))
  | noMoreRows
  | fails (code : Int)

/-- libfbclient copies a row. -/
def storeRow : List Bytes → List (Int16 × Bytes) → Option (List Bytes)
  | [], [] => some []
  | b :: bs, cell :: cells => do
      let b ← poke b cell.2
      let bs ← storeRow bs cells
      some (b :: bs)
  | _, _ => none

/-- A `Fetch` that finds a row. -/
def RowBuffers.store (st : RowBuffers) (cells : List (Int16 × Bytes)) : Option RowBuffers :=
  (storeRow st.buffers cells).map fun buffers =>
    { st with buffers, indicators := cells.map Prod.fst, bytesRead := st.bytesRead + st.rowWidthBytes }

/-- `while (stmt.Fetch())`, reading every row. `none` when a call fails, and when anything is written or read beyond
    a buffer. -/
def fetchAll (st : RowBuffers) : List FetchCall → Option (List (List (Option RawCell)) × RowBuffers)
  | .row cells :: calls => do
      let st ← st.store cells
      let row ← readRow st.columns st.buffers st.indicators
      let (rows, st) ← fetchAll st calls
      some (row :: rows, st)
  | .noMoreRows :: _ => some ([], st)
  | _ => none

/-! ## What the server stores -/

/-- The bytes are those of the cell: numbers are little-endian, a `VARCHAR` has its length in front, a time with a
    zone has its UTC part in front, and in the place of a BLOB is its id. -/
def Wire.Framed (sqllen : Int16) {t : SqlType} (cell : Wire t) (frame : Bytes) : Prop :=
  match cell with
  | .text buffer => frame = buffer ∧ buffer.length = sizeT sqllen
  | .varying len payload => frame = bytesOf 2 len.toNat ++ payload ∧ len.toNat ≤ payload.length
  | .short n => frame = bytesOf 2 n.toUInt16.toNat
  | .long n => frame = bytesOf 4 n.toUInt32.toNat
  | .int64 n => frame = bytesOf 8 n.toUInt64.toNat
  | .int128 lo hi => frame = bytesOf 8 lo.toNat ++ bytesOf 8 hi.toUInt64.toNat
  | .float d => frame.length = 4 ∧ Ieee.single.read (unsigned frame) = d
  | .double d | .dFloat d => frame.length = 8 ∧ Ieee.double.read (unsigned frame) = d
  | .boolean b => frame = [b]
  | .timestamp date time => frame = bytesOf 4 date.value.toUInt32.toNat ++ bytesOf 4 time.value.toNat
  | .typeDate date => frame = bytesOf 4 date.value.toUInt32.toNat
  | .typeTime time => frame = bytesOf 4 time.value.toNat
  | .timestampTz date time | .timestampTzEx date time =>
      ∃ zone, frame = bytesOf 4 date.value.toUInt32.toNat ++ (bytesOf 4 time.value.toNat ++ zone)
  | .timeTz time | .timeTzEx time => ∃ zone, frame = bytesOf 4 time.value.toNat ++ zone
  | .blob _ => frame.length = 8
  | .undecoded _ buffer => frame = buffer

/-- What the accessors return for the cell. -/
def Wire.accessed (sqllen : Int16) {t : SqlType} (cell : Wire t) (frame : Bytes) : RawCell :=
  match cell with
  | .text buffer => .text (getText (.text buffer sqllen))
  | .varying len payload => .text (getText (.varying len payload))
  | .short n => .short n
  | .long n => .long n
  | .int64 n => .int64 n
  | .int128 lo hi => .int128 lo hi
  | .float d => .float d
  | .double d | .dFloat d => .double d
  | .boolean b => .bool (b ≠ 0)
  | .timestamp date time | .timestampTz date time | .timestampTzEx date time => .timestamp date.value time.value
  | .typeDate date => .date date.value
  | .typeTime time | .timeTz time | .timeTzEx time => .time time.value
  | .blob _ => .blob frame
  | .undecoded _ _ => .unread

/-- A cell of a row as it is stored: its value or `NULL`, and what libfbclient copies for it. -/
structure StoredCell where
  col : FirebirdColumnDesc
  cell : Fetched col.sqltype
  indicator : Int16
  frame : Bytes
  null_iff : indicator = -1 ↔ cell = none
  framed : ∀ wire ∈ cell, wire.Framed col.sqllen frame

/-- What is copied is no longer than the buffer. -/
def StoredCell.Fits (c : StoredCell) : Prop := c.frame.length ≤ c.col.bufferSize

instance (c : StoredCell) : Decidable c.Fits := inferInstanceAs (Decidable (_ ≤ _))

/-- What is read of it. -/
def StoredCell.accessed (c : StoredCell) : Option RawCell := c.cell.map fun wire => wire.accessed c.col.sqllen c.frame

/-- What libfbclient copies for it. -/
def StoredCell.sent (c : StoredCell) : Int16 × Bytes := (c.indicator, c.frame)

/-! ## Within the buffers -/

theorem sizeT_nonneg {n : Int16} (h : 0 ≤ n.toInt) : sizeT n = n.toUInt16.toNat ∧ sizeT n < 2 ^ 15 := by
  have hlt := n.toInt_lt
  have hnat : n.toInt = n.toUInt16.toNat := by
    have hcond := BitVec.toInt_eq_toNat_cond n.toBitVec
    rw [Int16.toInt_toBitVec] at hcond
    show n.toInt = (n.toBitVec.toNat : Int)
    split_ifs at hcond <;> omega
  unfold sizeT
  omega

/-- **Where the accessors stay within the buffer**: of every type but `VARCHAR` always, and there when the length in
    front is not more than the declared one. -/
theorem readAs_isSome_iff {sqltype : SqlType} {sqllen : Int16} (hlen : 0 ≤ sqllen.toInt) {buffer : Bytes}
    (hbuffer : buffer.length = bufferSize sqltype sqllen) :
    (readAs sqltype sqllen buffer).isSome = true ↔
      (sqltype = .varying → unsigned (buffer.take 2) ≤ sizeT sqllen) := by
  obtain ⟨-, hsmall⟩ := sizeT_nonneg hlen
  have hnat (offset size : Nat) (h : offset + size ≤ buffer.length) :
      ∃ n, peekNat buffer offset size = some n := Option.isSome_iff_exists.mp (peekNat_isSome_iff.mpr h)
  have hdate (h : 8 ≤ buffer.length) : (getTimestamp buffer).isSome = true := by
    obtain ⟨n, hn⟩ := hnat 0 4 (by omega)
    obtain ⟨m, hm⟩ := hnat 4 4 h
    simp [getTimestamp, getDate, getTime, hn, hm]
  cases sqltype with
  | varying =>
      have hsize : buffer.length = sizeT sqllen + 2 := by
        rw [hbuffer]
        exact Nat.mod_eq_of_lt (by omega)
      have hprefix : peekNat buffer 0 2 = some (unsigned (buffer.take 2)) := by
        rw [peekNat, peek, if_pos (by omega), List.drop_zero, Option.map_some]
      simp only [readAs, hprefix, Option.bind_eq_bind, Option.bind_some, Option.isSome_map, peek_isSome_iff,
        forall_const]
      omega
  | text =>
      have hsize : buffer.length = sizeT sqllen := hbuffer
      simp [readAs, peek_isSome_iff, hsize]
  | int128 =>
      have hsize : buffer.length = 16 := hbuffer
      obtain ⟨n, hn⟩ := hnat 0 8 (by omega)
      obtain ⟨m, hm⟩ := hnat 8 8 (by omega)
      simp [readAs, hn, hm]
  | timestamp => exact iff_of_true (hdate hbuffer.ge) fun h => SqlType.noConfusion h
  | timestampTz =>
      exact iff_of_true (hdate (hbuffer ▸ (by decide : 8 ≤ 8 + 2))) fun h => SqlType.noConfusion h
  | timestampTzEx =>
      exact iff_of_true (hdate (hbuffer ▸ (by decide : 8 ≤ 8 + 2 + 4))) fun h => SqlType.noConfusion h
  | _ =>
      have hsize := hbuffer
      simp only [bufferSize] at hsize
      simp [readAs, getDate, getTime, peek_isSome_iff, peekNat_isSome_iff, hsize]

/-! ## The fields of the structures -/

/-- The scalar fields of what the headers have for a type: a number, or a structure. -/
def abiFields : SqlType → Option (List Nat)
  | .short => some [2]
  | .long | .float | .typeDate | .typeTime => some [4]
  | .int64 | .double | .dFloat => some [8]
  | .boolean => some [1]
  -- `ISC_TIMESTAMP`, and `ISC_QUAD`
  | .timestamp | .blob | .array | .quad => some [4, 4]
  -- `ISC_TIMESTAMP_TZ` and `ISC_TIMESTAMP_TZ_EX`
  | .timestampTz => some [4, 4, 2]
  | .timestampTzEx => some [4, 4, 2, 2]
  -- `ISC_TIME_TZ` and `ISC_TIME_TZ_EX`
  | .timeTz => some [4, 2]
  | .timeTzEx => some [4, 2, 2]
  -- `FB_I128_t`, `FB_DEC16_t` and `FB_DEC34_t`
  | .int128 | .dec34 => some [8, 8]
  | .dec16 => some [8]
  | .text | .varying | .null | .other _ => none

/-- **Where a buffer has room for the structure of the headers**: for every type but the two with a zone and without
    an offset, whose structures are padded at the end. -/
theorem structSize_le_iff {sqltype : SqlType} {fields : List Nat} (h : abiFields sqltype = some fields)
    (sqllen : Int16) :
    structSize fields ≤ bufferSize sqltype sqllen ↔ sqltype ≠ .timestampTz ∧ sqltype ≠ .timeTz := by
  cases sqltype with
  | timestampTz =>
      obtain rfl := Option.some.inj h
      exact iff_of_false (by decide : ¬12 ≤ 8 + 2) fun hne => hne.1 rfl
  | timeTz =>
      obtain rfl := Option.some.inj h
      exact iff_of_false (by decide : ¬8 ≤ 4 + 2) fun hne => hne.2 rfl
  | timestampTzEx =>
      obtain rfl := Option.some.inj h
      exact iff_of_true (by decide : 12 ≤ 8 + 2 + 4) ⟨nofun, nofun⟩
  | timeTzEx =>
      obtain rfl := Option.some.inj h
      exact iff_of_true (by decide : 8 ≤ 4 + 2 + 4) ⟨nofun, nofun⟩
  | text => cases h
  | varying => cases h
  | null => cases h
  | other code => cases h
  | _ =>
      obtain rfl := Option.some.inj h
      exact iff_of_true (Nat.le_refl _) ⟨nofun, nofun⟩

/-- **The buffers suffice** for what is read, exactly while the length in front of a `VARCHAR` is not more than the
    declared one; and for what the headers have for a type, but for a time or a timestamp with a zone. -/
theorem buffers_suffice :
    (∀ (sqltype : SqlType) (sqllen : Int16) (buffer : Bytes), 0 ≤ sqllen.toInt →
      buffer.length = bufferSize sqltype sqllen →
      ((readAs sqltype sqllen buffer).isSome = true ↔
        (sqltype = .varying → unsigned (buffer.take 2) ≤ sizeT sqllen))) ∧
    ∀ (sqltype : SqlType) (sqllen : Int16) (fields : List Nat), abiFields sqltype = some fields →
      (structSize fields ≤ bufferSize sqltype sqllen ↔ sqltype ≠ .timestampTz ∧ sqltype ≠ .timeTz) :=
  ⟨fun _ _ _ hlen hbuffer => readAs_isSome_iff hlen hbuffer, fun _ sqllen _ h => structSize_le_iff h sqllen⟩

/-! ## The round trip -/

section Cell

variable {sqllen : Int16} {frame : Bytes}

theorem uint16_pow (n : UInt16) : n.toNat < 256 ^ 2 := n.toNat_lt

theorem uint32_pow (n : UInt32) : n.toNat < 256 ^ 4 := n.toNat_lt

theorem uint64_pow (n : UInt64) : n.toNat < 256 ^ 8 := n.toNat_lt

/-- Ticks are read where they were written. -/
theorem getTime_bytesOf (time : UInt32) (front back : Bytes) :
    getTime (front ++ bytesOf 4 time.toNat ++ back) front.length = some time := by
  rw [getTime, peekNat_bytesOf (uint32_pow time), Option.map_some, UInt32.ofNat_toNat]

theorem getTime_front (time : UInt32) (back : Bytes) : getTime (bytesOf 4 time.toNat ++ back) 0 = some time :=
  getTime_bytesOf time [] back

theorem getDate_bytesOf (date : Int32) (back : Bytes) :
    getDate (bytesOf 4 date.toUInt32.toNat ++ back) = some date := by
  rw [getDate, peekNat_front (uint32_pow _), Option.map_some, UInt32.ofNat_toNat]
  rfl

theorem getTimestamp_bytesOf (date : Int32) (time : UInt32) (back : Bytes) :
    getTimestamp (bytesOf 4 date.toUInt32.toNat ++ (bytesOf 4 time.toNat ++ back)) =
      some (.timestamp date time) := by
  have htime := getTime_bytesOf time (bytesOf 4 date.toUInt32.toNat) back
  rw [length_bytesOf, List.append_assoc] at htime
  rw [getTimestamp, getDate_bytesOf, htime]
  rfl

/-- A number that is as many bytes as it is read. -/
theorem peekNat_whole (frame rest : Bytes) : peekNat (frame ++ rest) 0 frame.length = some (unsigned frame) := by
  rw [peekNat, peek_front, Option.map_some]

/-- A text, which fills its buffer. -/
theorem readAs_text (hlen : frame.length = sizeT sqllen) (rest : Bytes) :
    readAs .text sqllen (frame ++ rest) = some (.text (getText (.text frame sqllen))) := by
  have hpeek := peek_front frame rest
  rw [hlen] at hpeek
  rw [readAs, hpeek, Option.map_some, getText]

/-- A text with its length in front. -/
theorem readAs_varying {len : UInt16} {payload : Bytes} (hlen : len.toNat ≤ payload.length) (rest : Bytes) :
    readAs .varying sqllen (bytesOf 2 len.toNat ++ payload ++ rest) =
      some (.text (getText (.varying len payload))) := by
  have hprefix := peekNat_front (uint16_pow len) (payload ++ rest)
  have hpeek := peek_between (bytesOf 2 len.toNat) (payload.take len.toNat) (payload.drop len.toNat ++ rest)
  have hwhole : bytesOf 2 len.toNat ++ payload.take len.toNat ++ (payload.drop len.toNat ++ rest) =
      bytesOf 2 len.toNat ++ (payload ++ rest) := by
    rw [List.append_assoc, ← List.append_assoc (payload.take _), List.take_append_drop]
  rw [hwhole, length_bytesOf, List.length_take, Nat.min_eq_left hlen] at hpeek
  rw [List.append_assoc, readAs, hprefix]
  show (peek _ 2 len.toNat).map RawCell.text = _
  rw [hpeek, Option.map_some, getText]

/-- A number of two words. -/
theorem readAs_int128 (lo : UInt64) (hi : Int64) (rest : Bytes) :
    readAs .int128 sqllen (bytesOf 8 lo.toNat ++ bytesOf 8 hi.toUInt64.toNat ++ rest) = some (.int128 lo hi) := by
  have hlo := peekNat_front (uint64_pow lo) (bytesOf 8 hi.toUInt64.toNat ++ rest)
  have hhi := peekNat_bytesOf (uint64_pow hi.toUInt64) (bytesOf 8 lo.toNat) rest
  rw [length_bytesOf, List.append_assoc] at hhi
  rw [List.append_assoc, readAs, hlo, Option.bind_eq_bind, Option.bind_some, hhi, Option.bind_some,
    UInt64.ofNat_toNat, UInt64.ofNat_toNat]
  rfl

theorem readAs_boolean (b : UInt8) (rest : Bytes) : readAs .boolean sqllen ([b] ++ rest) = some (.bool (b ≠ 0)) := by
  have hpeek : peekNat ([b] ++ rest) 0 1 = some (unsigned [b]) := peekNat_whole [b] rest
  have hzero : unsigned [b] ≠ 0 ↔ b ≠ 0 := by
    simp [unsigned, ← UInt8.toNat_inj]
  rw [readAs, hpeek, Option.map_some, decide_eq_decide.mpr hzero]

theorem readAs_number {t : SqlType} {wire : Wire t}
    (ht : t ∈ [.short, .long, .int64, .int128, .float, .double, .dFloat, .boolean]) (h : wire.Framed sqllen frame)
    (rest : Bytes) : readAs t sqllen (frame ++ rest) = some (wire.accessed sqllen frame) := by
  cases wire with
  | short n =>
      obtain rfl := h
      rw [readAs, peekNat_front (uint16_pow _), Option.map_some, UInt16.ofNat_toNat]
      rfl
  | long n =>
      obtain rfl := h
      rw [readAs, peekNat_front (uint32_pow _), Option.map_some, UInt32.ofNat_toNat]
      rfl
  | int64 n =>
      obtain rfl := h
      rw [readAs, peekNat_front (uint64_pow _), Option.map_some, UInt64.ofNat_toNat]
      rfl
  | int128 lo hi =>
      obtain rfl := h
      exact readAs_int128 lo hi rest
  | float d =>
      obtain ⟨hlength, rfl⟩ := h
      rw [readAs, ← hlength, peekNat_whole]
      rfl
  | double d | dFloat d =>
      obtain ⟨hlength, rfl⟩ := h
      rw [readAs, ← hlength, peekNat_whole]
      rfl
  | boolean b =>
      obtain rfl := h
      exact readAs_boolean b rest
  | undecoded hother buffer => cases t <;> first | (cases hother; done) | simp at ht
  | _ => exact absurd ht (by decide)

theorem readAs_temporal {t : SqlType} {wire : Wire t}
    (ht : t ∈ [.timestamp, .timestampTz, .timestampTzEx, .typeDate, .typeTime, .timeTz, .timeTzEx])
    (h : wire.Framed sqllen frame) (rest : Bytes) :
    readAs t sqllen (frame ++ rest) = some (wire.accessed sqllen frame) := by
  cases wire with
  | timestamp date time =>
      obtain rfl := h
      rw [List.append_assoc]
      exact getTimestamp_bytesOf date.value time.value rest
  | timestampTz date time | timestampTzEx date time =>
      obtain ⟨zone, rfl⟩ := h
      rw [List.append_assoc, List.append_assoc]
      exact getTimestamp_bytesOf date.value time.value (zone ++ rest)
  | typeDate date =>
      obtain rfl := h
      rw [readAs, getDate_bytesOf]
      rfl
  | typeTime time =>
      obtain rfl := h
      rw [readAs, getTime_front]
      rfl
  | timeTz time | timeTzEx time =>
      obtain ⟨zone, rfl⟩ := h
      rw [readAs, List.append_assoc, getTime_front]
      rfl
  | undecoded hother buffer => cases t <;> first | (cases hother; done) | simp at ht
  | _ => exact absurd ht (by decide)

/-- **A cell is read as it was stored**, whatever stands behind it in the buffer. -/
theorem readAs_framed {t : SqlType} {wire : Wire t} (h : wire.Framed sqllen frame) (rest : Bytes) :
    readAs t sqllen (frame ++ rest) = some (wire.accessed sqllen frame) := by
  cases wire with
  | text buffer =>
      obtain ⟨rfl, hlength⟩ := h
      exact readAs_text hlength rest
  | varying len payload =>
      obtain ⟨rfl, hlength⟩ := h
      exact readAs_varying hlength rest
  | short | long | int64 | int128 | float | double | dFloat | boolean => exact readAs_number (by decide) h rest
  | timestamp | timestampTz | timestampTzEx | typeDate | typeTime | timeTz | timeTzEx =>
      exact readAs_temporal (by decide) h rest
  | blob content =>
      have hlength : frame.length = 8 := h
      have hpeek := peek_front frame rest
      rw [hlength] at hpeek
      rw [readAs, hpeek]
      rfl
  | undecoded ht buffer => cases t <;> first | rfl | cases ht

end Cell

section Row

/-- The cells of the row are those of the columns. -/
def RowOf (columns : List FirebirdColumnDesc) (row : List StoredCell) : Prop := row.map StoredCell.col = columns

/-- They fit the buffers too. -/
def FitRow (columns : List FirebirdColumnDesc) (row : List StoredCell) : Prop :=
  RowOf columns row ∧ ∀ cell ∈ row, cell.Fits

/-- What the fetches are of rows that are stored. -/
def fetchesOf (rows : List (List StoredCell)) : List FetchCall :=
  (rows.map fun row => .row (row.map StoredCell.sent)) ++ [.noMoreRows]

/-- Every buffer is as large as its column asks for. -/
structure RowBuffers.Inv (st : RowBuffers) : Prop where
  sizes : st.buffers.map List.length = st.columns.map FirebirdColumnDesc.bufferSize
  width : st.rowWidthBytes = (st.columns.map FirebirdColumnDesc.bufferSize).sum

theorem allocateBuffers_inv (vars : List XSqlVar) : (allocateBuffers vars).Inv where
  sizes := by
    simp only [allocateBuffers, List.map_map]
    exact List.map_congr_left fun v _ => List.length_replicate
  width := by
    simp only [allocateBuffers, List.map_map]
    rfl

/-- **Where a row is copied**: while each of its cells fits the buffer of its column. -/
theorem storeRow_isSome_iff {row : List StoredCell} {buffers : List Bytes}
    (hsizes : buffers.map List.length = row.map fun cell => cell.col.bufferSize) :
    (storeRow buffers (row.map StoredCell.sent)).isSome = true ↔ ∀ cell ∈ row, cell.Fits := by
  induction row generalizing buffers with
  | nil =>
      obtain rfl := List.map_eq_nil_iff.mp hsizes
      exact iff_of_true rfl (List.forall_mem_nil _)
  | cons cell row ih =>
      obtain ⟨buffer, buffers, rfl, hsize, hrest⟩ := List.map_eq_cons_iff.mp hsizes
      rw [List.forall_mem_cons, ← ih hrest]
      show ((poke buffer cell.frame).bind fun b => (storeRow buffers (row.map StoredCell.sent)).bind fun bs =>
        some (b :: bs)).isSome = true ↔ _
      have hcell : cell.Fits ↔ cell.frame.length ≤ buffer.length := by
        rw [hsize]
        rfl
      unfold poke
      split_ifs with hfits
      · rw [Option.bind_some]
        cases storeRow buffers (row.map StoredCell.sent) with
        | none => exact iff_of_false Bool.false_ne_true fun h => Bool.false_ne_true h.2
        | some bs => exact iff_of_true rfl ⟨hcell.mpr hfits, rfl⟩
      · exact iff_of_false Bool.false_ne_true fun h => hfits (hcell.mp h.1)

/-- **One row**: it is copied, it is read as it was stored, and the buffers keep their sizes. -/
theorem storeRow_read {columns : List FirebirdColumnDesc} {buffers : List Bytes} {row : List StoredCell}
    (hrow : FitRow columns row) (hsizes : buffers.map List.length = columns.map FirebirdColumnDesc.bufferSize) :
    ∃ buffers', storeRow buffers (row.map StoredCell.sent) = some buffers' ∧
      buffers'.map List.length = columns.map FirebirdColumnDesc.bufferSize ∧
      readRow columns buffers' ((row.map StoredCell.sent).map Prod.fst) = some (row.map StoredCell.accessed) := by
  obtain ⟨hcols, hfits⟩ := hrow
  induction row generalizing columns buffers with
  | nil =>
      obtain rfl : [] = columns := hcols
      obtain rfl := List.map_eq_nil_iff.mp hsizes
      exact ⟨[], rfl, rfl, rfl⟩
  | cons cell row ih =>
      obtain rfl : cell.col :: row.map StoredCell.col = columns := hcols
      obtain ⟨buffer, buffers, rfl, hsize, hrest⟩ := List.map_eq_cons_iff.mp hsizes
      obtain ⟨hcellFits, hfits⟩ := List.forall_mem_cons.mp hfits
      obtain ⟨buffers', hstore, hsizes', hread⟩ := ih hrest rfl hfits
      -- this cell's bytes, with what is left of the buffer
      have hpoke : poke buffer cell.frame = some (cell.frame ++ buffer.drop cell.frame.length) := by
        unfold poke
        rw [if_pos (hsize ▸ hcellFits)]
      have hcell : readCell cell.col cell.indicator (cell.frame ++ buffer.drop cell.frame.length) =
          some cell.accessed := by
        unfold readCell StoredCell.accessed
        cases hnull : cell.cell with
        | none => rw [if_pos (cell.null_iff.mpr hnull), Option.map_none]
        | some wire =>
            have hne : cell.indicator ≠ -1 := fun h => by
              rw [cell.null_iff.mp h] at hnull
              cases hnull
            rw [if_neg hne, readAs_framed (cell.framed wire hnull), Option.map_some, Option.map_some]
      refine ⟨(cell.frame ++ buffer.drop cell.frame.length) :: buffers', ?_, ?_, ?_⟩
      · show (poke buffer cell.frame).bind _ = _
        rw [hpoke, Option.bind_some, hstore]
        rfl
      · rw [List.map_cons, hsizes', poke_length hpoke, hsize]
        rfl
      · show (readCell cell.col cell.indicator _).bind _ = _
        rw [hcell, Option.bind_some, hread]
        rfl

/-- A `Fetch` of a row that fits. -/
theorem RowBuffers.store_read {st : RowBuffers} {row : List StoredCell} (hst : st.Inv)
    (hrow : FitRow st.columns row) :
    ∃ st', st.store (row.map StoredCell.sent) = some st' ∧
      readRow st'.columns st'.buffers st'.indicators = some (row.map StoredCell.accessed) ∧ st'.Inv ∧
      st'.columns = st.columns ∧ st'.rowWidthBytes = st.rowWidthBytes ∧
      st'.bytesRead = st.bytesRead + st.rowWidthBytes := by
  obtain ⟨buffers, hstore, hsizes, hread⟩ := storeRow_read hrow hst.sizes
  refine ⟨{ st with buffers, indicators := (row.map StoredCell.sent).map Prod.fst,
                    bytesRead := st.bytesRead + st.rowWidthBytes }, ?_, hread, ⟨hsizes, hst.width⟩, rfl, rfl, rfl⟩
  rw [RowBuffers.store, hstore, Option.map_some]

/-- **The fetches of rows that fit**, in a statement whose buffers have their sizes. -/
theorem fetchAll_run {rows : List (List StoredCell)} {st : RowBuffers} (hst : st.Inv)
    (hrows : ∀ row ∈ rows, FitRow st.columns row) :
    ∃ st', fetchAll st (fetchesOf rows) = some (rows.map fun row => row.map StoredCell.accessed, st') ∧
      st'.Inv ∧ st'.bytesRead = st.bytesRead + rows.length * st.rowWidthBytes := by
  induction rows generalizing st with
  | nil => exact ⟨st, rfl, hst, by simp⟩
  | cons row rows ih =>
      obtain ⟨hrow, hrest⟩ := List.forall_mem_cons.mp hrows
      obtain ⟨stored, hstore, hread, hinv, hcolumns, hwidth, hbytes⟩ := RowBuffers.store_read hst hrow
      obtain ⟨st', hfetch, hinv', hbytes'⟩ := ih hinv (hcolumns ▸ hrest)
      refine ⟨st', ?_, hinv', ?_⟩
      · show fetchAll st (.row (row.map StoredCell.sent) :: fetchesOf rows) = _
        rw [fetchAll, hstore, Option.bind_eq_bind, Option.bind_some, hread, Option.bind_eq_bind, Option.bind_some,
          hfetch]
        rfl
      · rw [hbytes', hbytes, hwidth, List.length_cons, Nat.succ_mul, Nat.add_comm (rows.length * st.rowWidthBytes),
          ← Nat.add_assoc]

/-- Fetches that all stay within the buffers are fetches of rows that fit. -/
theorem fits_of_fetchAll {rows : List (List StoredCell)} {st : RowBuffers} (hst : st.Inv)
    (hrows : ∀ row ∈ rows, RowOf st.columns row) (h : (fetchAll st (fetchesOf rows)).isSome = true) :
    ∀ row ∈ rows, ∀ cell ∈ row, cell.Fits := by
  induction rows generalizing st with
  | nil => nofun
  | cons row rows ih =>
      obtain ⟨hrow, hrest⟩ := List.forall_mem_cons.mp hrows
      have hsizes : st.buffers.map List.length = row.map fun cell => cell.col.bufferSize := by
        rw [hst.sizes, ← show row.map StoredCell.col = st.columns from hrow, List.map_map]
        rfl
      obtain ⟨read, hfetch⟩ := Option.isSome_iff_exists.mp h
      -- the copy of this row, and the fetches behind it
      obtain ⟨stored, hstore, hnext⟩ := Option.bind_eq_some_iff.mp hfetch
      obtain ⟨buffers, hbuffers, -⟩ := Option.map_eq_some_iff.mp hstore
      have hfits := (storeRow_isSome_iff hsizes).mp (Option.isSome_of_eq_some hbuffers)
      obtain ⟨stored', hstore', -, hinv, hcolumns, -⟩ := RowBuffers.store_read hst ⟨hrow, hfits⟩
      obtain rfl := Option.some.inj (hstore'.symm.trans hstore)
      obtain ⟨cells, -, hnext⟩ := Option.bind_eq_some_iff.mp hnext
      obtain ⟨others, hothers, -⟩ := Option.bind_eq_some_iff.mp hnext
      exact List.forall_mem_cons.mpr
        ⟨hfits, ih hinv (hcolumns ▸ hrest) (Option.isSome_of_eq_some hothers)⟩

/-- A cell that is as long as the structure of the headers for its type. -/
theorem fits_of_structSize {cell : StoredCell} {fields : List Nat} (h : abiFields cell.col.sqltype = some fields)
    (hlength : cell.frame.length = structSize fields) :
    cell.Fits ↔ cell.col.sqltype ≠ .timestampTz ∧ cell.col.sqltype ≠ .timeTz := by
  have hsize := structSize_le_iff h cell.col.sqllen
  rwa [← hlength] at hsize

/-- **Rows are read as they were stored**: every value, and every `NULL`, exactly if no cell is longer than the buffer
    of its column. Each row adds its width to the bytes read. Of the cells that are as long as the structure of the
    headers, those of the two types with a zone and without an offset are too long. -/
theorem fetchAll_stored (vars : List XSqlVar) {rows : List (List StoredCell)}
    (hrows : ∀ row ∈ rows, RowOf (vars.map describeColumn) row) :
    ((fetchAll (allocateBuffers vars) (fetchesOf rows)).isSome = true ↔ ∀ row ∈ rows, ∀ cell ∈ row, cell.Fits) ∧
    (∀ read st, fetchAll (allocateBuffers vars) (fetchesOf rows) = some (read, st) →
      read = (rows.map fun row => row.map StoredCell.accessed) ∧ st.Inv ∧
      st.bytesRead = rows.length * (vars.map fun v => (describeColumn v).bufferSize).sum) ∧
    ∀ (cell : StoredCell) (fields : List Nat), abiFields cell.col.sqltype = some fields →
      cell.frame.length = structSize fields →
      (cell.Fits ↔ cell.col.sqltype ≠ .timestampTz ∧ cell.col.sqltype ≠ .timeTz) := by
  have hinv := allocateBuffers_inv vars
  have hrun (hfits : ∀ row ∈ rows, ∀ cell ∈ row, cell.Fits) :=
    fetchAll_run hinv fun row hrow => ⟨hrows row hrow, hfits row hrow⟩
  refine ⟨⟨fits_of_fetchAll hinv hrows, fun hfits => ?_⟩, ?_, fun cell fields => fits_of_structSize⟩
  · obtain ⟨st, hfetch, -⟩ := hrun hfits
    rw [hfetch]
    rfl
  · intro read st hread
    obtain ⟨st', hfetch, hst, hbytes⟩ := hrun (fits_of_fetchAll hinv hrows (by rw [hread]; rfl))
    rw [hread] at hfetch
    obtain ⟨rfl, rfl⟩ := Prod.mk.inj (Option.some.inj hfetch)
    exact ⟨rfl, hst, hbytes.trans (Nat.zero_add _)⟩

/-- A `VARCHAR(3)` and a `BIGINT`, as they are described. -/
def nameVar : XSqlVar := { aliasname := utf8 "NAME ", sqltype := 449, sqlsubtype := 4, sqllen := 3 }

def idVar : XSqlVar := { aliasname := utf8 "ID", sqltype := 580, sqllen := 8 }

/-- A name of two letters, with a byte behind it that belongs to nothing. -/
def storedName : StoredCell where
  col := describeColumn nameVar
  cell := some (.varying 2 [0x41, 0x42, 0x43])
  indicator := 0
  frame := [2, 0, 0x41, 0x42, 0x43]
  null_iff := iff_of_false (by decide) nofun
  framed := by
    intro wire hwire
    obtain rfl := Option.some.inj hwire
    exact ⟨by decide, by decide⟩

/-- A `NULL`. -/
def storedNull : StoredCell where
  col := describeColumn idVar
  cell := none
  indicator := -1
  frame := []
  null_iff := iff_of_true rfl rfl
  framed := nofun

theorem fetchAll_stored_name :
    (∀ row ∈ [[storedName, storedNull]], ∀ cell ∈ row, StoredCell.Fits cell) ∧
    ((fetchAll (allocateBuffers [nameVar, idVar]) (fetchesOf [[storedName, storedNull]])).isSome = true ↔
      ∀ row ∈ [[storedName, storedNull]], ∀ cell ∈ row, StoredCell.Fits cell) :=
  ⟨by decide, (@fetchAll_stored [nameVar, idVar] [[storedName, storedNull]] (List.forall_mem_singleton.mpr rfl)).1⟩

end Row

end FirebirdScan
