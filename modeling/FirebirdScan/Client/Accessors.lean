import FirebirdScan.Client.RowBuffers
import FirebirdScan.Lib.Raising

/-!
# `Client.Accessors` — the accessors, called for a column of any type

`FirebirdAppendValue` calls the accessor of the type that a column has. The functions that read the catalog call the one
that they expect to fit, `GetShort` for a `SMALLINT`, whatever the server describes: an accessor copies as many bytes as
its own type has, and nothing checks that the buffer is as long.

`CatalogCell` is a cell as these functions mean it, and `RowBuffers.Holds` says that the accessors return it.
`RowBuffers.store_holds` is the link to the rows of `Client.RowBuffers`: a row that was fetched is held, in columns of the
kinds that a query has (`ResultKind`).
-/

namespace FirebirdScan

open Memory Raising

/-! ## The accessors -/

/-- What stops a function: a read beyond a buffer or a signed overflow, which no handler sees, or an exception; that a
    text is no UTF-8 is the exception of `Value(std::string)`. -/
inductive Stop where
  | beyondBuffer
  | overflow
  | invalidUnicode (text : Bytes)
  | thrown (message : Bytes)
deriving DecidableEq

/-- A read of memory. -/
def Stop.within {α : Type} : Option α → Except Stop α
  | some a => .ok a
  | none => .error .beyondBuffer

namespace RowBuffers

variable (c : RowBuffers) (i : Nat)

/-- `IsNull`. -/
def isNull : Except Stop Bool := Stop.within (c.indicators[i]?.map fun indicator => indicator == -1)

/-- The low bytes of a column, as a number. -/
def number (width : Nat) : Except Stop Nat := Stop.within (c.buffers[i]?.bind fun buffer => peekNat buffer 0 width)

/-- `GetShort`. -/
def getShort : Except Stop Int16 := (c.number i 2).map fun n => (UInt16.ofNat n).toInt16

/-- `GetLong`. -/
def getLong : Except Stop Int32 := (c.number i 4).map fun n => (UInt32.ofNat n).toInt32

/-- `GetInt64`. -/
def getInt64 : Except Stop Int64 := (c.number i 8).map fun n => (UInt64.ofNat n).toInt64

/-- The text in a buffer, of a column of type `CHAR` or `VARCHAR`. -/
def textIn (sqltype : SqlType) (sqllen : Int16) (buffer : Bytes) : Option Bytes :=
  match sqltype with
  | .varying => (peekNat buffer 0 2).bind fun len => peek buffer 2 len
  | .text => (peek buffer 0 (sizeT sqllen)).map fun p => p.take (trimmedLength p (sizeT sqllen))
  | _ => some []

/-- `GetText`. -/
def getText : Except Stop Bytes :=
  Stop.within (c.columns[i]?.bind fun col => c.buffers[i]?.bind fun buffer => textIn col.sqltype col.sqllen buffer)

/-- What `ReadBlob` opens. -/
def getBlobId : Except Stop Bytes := Stop.within (c.buffers[i]?.bind fun buffer => peek buffer 0 8)

end RowBuffers

/-! ## Queries of the catalog -/

/-- What a query of the catalog returns: the columns as the server describes them, the rows that are fetched, and what the
    call behind them throws, if anything. -/
structure CatalogAnswer where
  vars : List XSqlVar
  rows : List (List (Int16 × Bytes))
  error : Option Bytes := none

/-- A session with a database: a query opens a cursor or throws, and a BLOB is read or throws. -/
structure CatalogServer where
  openCursor : Bytes → Except Bytes CatalogAnswer
  readBlob : Bytes → Except Bytes Bytes

/-- `while (cursor->Fetch())`, with what is done with each row. -/
def fetchRows {α : Type} (mapRow : RowBuffers → Except Stop α) (error : Option Bytes) :
    RowBuffers → List (List (Int16 × Bytes)) → Except Stop (List α)
  | _, [] =>
      match error with
      | none => .ok []
      | some e => .error (.thrown e)
  | c, cells :: rest => do
      let c ← Stop.within (c.store cells)
      let row ← mapRow c
      let rows ← fetchRows mapRow error c rest
      .ok (row :: rows)

/-- A cursor is opened and read to its end. -/
def CatalogServer.fetchQuery {α : Type} (server : CatalogServer) (sql : Bytes) (mapRow : RowBuffers → Except Stop α) :
    Except Stop (List α) := do
  let answer ← (server.openCursor sql).mapError .thrown
  fetchRows mapRow answer.error (allocateBuffers answer.vars) answer.rows

/-! ## Cells -/

/-- A cell of a query of the catalog. -/
inductive CatalogCell where
  | null
  | text (s : Bytes)
  | number (n : Int64)
  | blob (id : Bytes)
deriving DecidableEq

/-- What a query has in a column: a text, an integer of at least so many bytes, or a BLOB. -/
inductive ResultKind where
  | text
  | number (width : Nat)
  | blob
deriving DecidableEq

/-- The server describes a column of the kind. -/
def ResultKind.Describes : ResultKind → FirebirdColumnDesc → Prop
  | .text, col => col.sqltype = .text ∨ col.sqltype = .varying
  | .number width, col =>
      (col.sqltype = .short ∨ col.sqltype = .long ∨ col.sqltype = .int64) ∧ width ≤ col.bufferSize
  | .blob, col => col.sqltype = .blob

/-- The cell in the terms of the catalog. -/
def RawCell.catalogCell : RawCell → CatalogCell
  | .text s => .text s
  | .short n => .number n.toInt64
  | .long n => .number n.toInt64
  | .int64 n => .number n
  | .blob id => .blob id
  | _ => .null

def StoredCell.catalogCell (cell : StoredCell) : CatalogCell :=
  match cell.accessed with
  | none => .null
  | some raw => raw.catalogCell

/-- The low bytes of a number. -/
def lowBytes (n : Int64) (width : Nat) : Nat := (n.toInt % 256 ^ width).toNat

/-- The accessors return the cell. Of a column of numbers they return something even where it is `NULL`. -/
inductive RowBuffers.Holds (c : RowBuffers) (i : Nat) : ResultKind → CatalogCell → Prop
  | null {kind : ResultKind} : c.isNull i = .ok true →
      (∀ width, kind = .number width → ∀ narrow ≤ width, ∃ n, c.number i narrow = .ok n) → Holds c i kind .null
  | text {s : Bytes} : c.isNull i = .ok false → c.getText i = .ok s → Holds c i .text (.text s)
  | number {width : Nat} {n : Int64} : c.isNull i = .ok false →
      (∀ narrow ≤ width, c.number i narrow = .ok (lowBytes n narrow)) → Holds c i (.number width) (.number n)
  | blob {id : Bytes} : c.isNull i = .ok false → c.getBlobId i = .ok id → Holds c i .blob (.blob id)

/-- The row is in the buffers. -/
def RowBuffers.HoldsRow (c : RowBuffers) (kinds : List ResultKind) (cells : List CatalogCell) : Prop :=
  kinds.length = cells.length ∧
    ∀ i kind cell, kinds[i]? = some kind → cells[i]? = some cell → c.Holds i kind cell

/-! ## Numbers -/

theorem lowBytes_bmod (n : Int64) (width : Nat) :
    (lowBytes n width : Int).bmod (256 ^ width) = n.toInt.bmod (256 ^ width) := by
  have hcast : ((256 ^ width : Nat) : Int) = 256 ^ width := by push_cast; rfl
  have hne : (256 ^ width : Int) ≠ 0 := pow_ne_zero width (by decide)
  rw [lowBytes, Int.toNat_of_nonneg (Int.emod_nonneg _ hne), ← hcast]
  exact Int.emod_bmod n.toInt (256 ^ width)

theorem getShort_lowBytes (n : Int64) : (UInt16.ofNat (lowBytes n 2)).toInt16 = n.toInt16 := by
  rw [← Int16.toInt_inj, Int64.toInt_toInt16]
  show (BitVec.ofNat 16 (lowBytes n 2)).toInt = _
  rw [BitVec.toInt_ofNat']
  exact lowBytes_bmod n 2

theorem getLong_lowBytes (n : Int64) : (UInt32.ofNat (lowBytes n 4)).toInt32 = n.toInt32 := by
  rw [← Int32.toInt_inj, Int64.toInt_toInt32]
  show (BitVec.ofNat 32 (lowBytes n 4)).toInt = _
  rw [BitVec.toInt_ofNat']
  exact lowBytes_bmod n 4

theorem getInt64_lowBytes (n : Int64) : (UInt64.ofNat (lowBytes n 8)).toInt64 = n := by
  have hlow := n.le_toInt
  have hhigh := n.toInt_lt
  rw [← Int64.toInt_inj]
  show (BitVec.ofNat 64 (lowBytes n 8)).toInt = _
  rw [BitVec.toInt_ofNat']
  exact (lowBytes_bmod n 8).trans (Int.bmod_eq_of_le (by omega) (by omega))

section Accessors

variable {c : RowBuffers} {i width : Nat} {n : Int64}

namespace RowBuffers.Holds

/-- Each accessor of a number that fits the column returns it. -/
theorem getShort (h : c.Holds i (.number width) (.number n)) (hwidth : 2 ≤ width) : c.getShort i = .ok n.toInt16 := by
  cases h with
  | number _ hnumber =>
      unfold RowBuffers.getShort
      rw [hnumber 2 hwidth, ← getShort_lowBytes]
      rfl

theorem getLong (h : c.Holds i (.number width) (.number n)) (hwidth : 4 ≤ width) : c.getLong i = .ok n.toInt32 := by
  cases h with
  | number _ hnumber =>
      unfold RowBuffers.getLong
      rw [hnumber 4 hwidth, ← getLong_lowBytes]
      rfl

theorem getInt64 (h : c.Holds i (.number width) (.number n)) (hwidth : 8 ≤ width) : c.getInt64 i = .ok n := by
  cases h with
  | number _ hnumber =>
      unfold RowBuffers.getInt64
      rw [hnumber 8 hwidth]
      exact congrArg Except.ok (getInt64_lowBytes n)

theorem isNull {kind : ResultKind} {cell : CatalogCell} (h : c.Holds i kind cell) :
    c.isNull i = .ok (decide (cell = .null)) := by
  cases h with
  | null hnull => exact hnull
  | text hnull => exact hnull
  | number hnull => exact hnull
  | blob hnull => exact hnull

end RowBuffers.Holds

/-- **Where a number is read beyond its buffer.** -/
theorem RowBuffers.Inv.number_beyond (hinv : c.Inv) {col : FirebirdColumnDesc} (hcol : c.columns[i]? = some col)
    (hwidth : col.bufferSize < width) : c.number i width = .error .beyondBuffer := by
  have hsize : (c.buffers.map List.length)[i]? = some col.bufferSize := by
    rw [hinv.sizes, List.getElem?_map, hcol]
    rfl
  rw [List.getElem?_map, Option.map_eq_some_iff] at hsize
  obtain ⟨buffer, hbuffer, hlength⟩ := hsize
  have hnone : peekNat buffer 0 width = none := by
    rw [← Option.not_isSome_iff_eq_none, peekNat_isSome_iff]
    omega
  unfold RowBuffers.number
  rw [hbuffer, Option.bind_some, hnone]
  rfl

end Accessors

/-! ## A row that was fetched -/

section Stored

/-- What a column holds after its cell was copied. -/
structure StoredCell.InBuffer (cell : StoredCell) (buffer : Bytes) : Prop where
  size : buffer.length = cell.col.bufferSize
  frame : ∃ rest, buffer = cell.frame ++ rest

/-- A row is copied, each cell to the front of its buffer. -/
theorem storeRow_inBuffer {row : List StoredCell} {buffers : List Bytes}
    (hfits : ∀ cell ∈ row, cell.Fits)
    (hsizes : buffers.map List.length = row.map fun cell => cell.col.bufferSize) :
    ∃ buffers', storeRow buffers (row.map StoredCell.sent) = some buffers' ∧
      List.Forall₂ StoredCell.InBuffer row buffers' := by
  induction row generalizing buffers with
  | nil =>
      obtain rfl := List.map_eq_nil_iff.mp hsizes
      exact ⟨[], rfl, .nil⟩
  | cons cell row ih =>
      obtain ⟨buffer, buffers, rfl, hsize, hrest⟩ := List.map_eq_cons_iff.mp hsizes
      obtain ⟨hcell, hcells⟩ := List.forall_mem_cons.mp hfits
      obtain ⟨buffers', hstore, hrow⟩ := ih hcells hrest
      have hpoke : poke buffer cell.frame = some (cell.frame ++ buffer.drop cell.frame.length) := by
        unfold poke
        rw [if_pos (hsize ▸ hcell)]
      refine ⟨(cell.frame ++ buffer.drop cell.frame.length) :: buffers', ?_, .cons ⟨?_, _, rfl⟩ hrow⟩
      · show (poke buffer cell.frame).bind _ = _
        rw [hpoke, Option.bind_some, hstore]
        rfl
      · rw [poke_length hpoke, hsize]

/-- The low bytes of what is stored are those of the number. -/
theorem low_of_mod {z : Int} {m full narrow : Nat} (h : (m : Int) = z % 256 ^ full) (hle : narrow ≤ full) :
    m % 256 ^ narrow = (z % 256 ^ narrow).toNat := by
  have hdvd : (256 ^ narrow : Int) ∣ 256 ^ full := pow_dvd_pow 256 hle
  have hcast : ((m % 256 ^ narrow : Nat) : Int) = z % 256 ^ narrow := by
    push_cast
    rw [h, Int.emod_emod_of_dvd _ hdvd]
  omega

theorem toUInt16_toNat (n : Int16) : (n.toUInt16.toNat : Int) = n.toInt % 256 ^ 2 := by
  have hcond := BitVec.toInt_eq_toNat_cond n.toBitVec
  have hlt : n.toUInt16.toNat < 65536 := n.toUInt16.toNat_lt
  rw [Int16.toInt_toBitVec] at hcond
  have hnat : n.toBitVec.toNat = n.toUInt16.toNat := rfl
  rw [hnat] at hcond
  split_ifs at hcond <;> omega

theorem toUInt32_toNat (n : Int32) : (n.toUInt32.toNat : Int) = n.toInt % 256 ^ 4 := by
  have hcond := BitVec.toInt_eq_toNat_cond n.toBitVec
  have hlt : n.toUInt32.toNat < 4294967296 := n.toUInt32.toNat_lt
  rw [Int32.toInt_toBitVec] at hcond
  have hnat : n.toBitVec.toNat = n.toUInt32.toNat := rfl
  rw [hnat] at hcond
  split_ifs at hcond <;> omega

theorem toUInt64_toNat (n : Int64) : (n.toUInt64.toNat : Int) = n.toInt % 256 ^ 8 := by
  have hcond := BitVec.toInt_eq_toNat_cond n.toBitVec
  have hlt : n.toUInt64.toNat < 18446744073709551616 := n.toUInt64.toNat_lt
  rw [Int64.toInt_toBitVec] at hcond
  have hnat : n.toBitVec.toNat = n.toUInt64.toNat := rfl
  rw [hnat] at hcond
  split_ifs at hcond <;> omega

variable {t : SqlType} {sqllen : Int16} {wire : Wire t} {frame : Bytes}

/-- A number that was stored, read at any width that the column has. -/
theorem number_framed (ht : t = .short ∨ t = .long ∨ t = .int64) (h : wire.Framed sqllen frame) (rest : Bytes) :
    ∃ n, (wire.accessed sqllen frame).catalogCell = .number n ∧
      ∀ narrow ≤ bufferSize t sqllen, peekNat (frame ++ rest) 0 narrow = some (lowBytes n narrow) := by
  cases wire with
  | short n =>
      obtain rfl := h
      refine ⟨n.toInt64, rfl, ?_⟩
      intro narrow hnarrow
      rw [peekNat_low (peekNat_front (uint16_pow _) rest) hnarrow, lowBytes, Int16.toInt_toInt64,
        low_of_mod (toUInt16_toNat n) hnarrow]
  | long n =>
      obtain rfl := h
      refine ⟨n.toInt64, rfl, ?_⟩
      intro narrow hnarrow
      rw [peekNat_low (peekNat_front (uint32_pow _) rest) hnarrow, lowBytes, Int32.toInt_toInt64,
        low_of_mod (toUInt32_toNat n) hnarrow]
  | int64 n =>
      obtain rfl := h
      refine ⟨n, rfl, ?_⟩
      intro narrow hnarrow
      rw [peekNat_low (peekNat_front (uint64_pow _) rest) hnarrow, lowBytes, low_of_mod (toUInt64_toNat n) hnarrow]
  | undecoded hu buffer => rcases ht with rfl | rfl | rfl <;> cases hu
  | _ => rcases ht with ht | ht | ht <;> cases ht

/-- The number of a `SMALLINT`. -/
theorem short_accessed {n : Int64} (ht : t = .short) (h : (wire.accessed sqllen frame).catalogCell = .number n) :
    ∃ k : Int16, n = k.toInt64 := by
  cases wire with
  | short k => exact ⟨k, (CatalogCell.number.inj h).symm⟩
  | undecoded hu buffer =>
      subst ht
      cases hu
  | _ => cases ht

/-- The number of an `INTEGER`. -/
theorem long_accessed {n : Int64} (ht : t = .long) (h : (wire.accessed sqllen frame).catalogCell = .number n) :
    ∃ k : Int32, n = k.toInt64 := by
  cases wire with
  | long k => exact ⟨k, (CatalogCell.number.inj h).symm⟩
  | undecoded hu buffer =>
      subst ht
      cases hu
  | _ => cases ht

theorem text_framed (ht : t = .text ∨ t = .varying) (h : wire.Framed sqllen frame) (rest : Bytes) :
    ∃ s, (wire.accessed sqllen frame).catalogCell = .text s ∧
      RowBuffers.textIn t sqllen (frame ++ rest) = some s := by
  have hread := readAs_framed h rest
  have hsame : readAs t sqllen (frame ++ rest) = (RowBuffers.textIn t sqllen (frame ++ rest)).map RawCell.text := by
    rcases ht with rfl | rfl
    · unfold readAs RowBuffers.textIn
      dsimp only
      rw [Option.map_map]
      rfl
    · unfold readAs RowBuffers.textIn
      dsimp only
      rw [Option.map_bind]
      rfl
  rw [hsame, Option.map_eq_some_iff] at hread
  obtain ⟨s, hs, haccessed⟩ := hread
  exact ⟨s, by rw [← haccessed]; rfl, hs⟩

theorem blob_framed (ht : t = .blob) (h : wire.Framed sqllen frame) (rest : Bytes) :
    (wire.accessed sqllen frame).catalogCell = .blob frame ∧ peek (frame ++ rest) 0 8 = some frame := by
  cases wire with
  | blob content =>
      have hlength : frame.length = 8 := h
      have hpeek := peek_front frame rest
      rw [hlength] at hpeek
      exact ⟨rfl, hpeek⟩
  | undecoded hu buffer =>
      subst ht
      cases hu
  | _ => cases ht

end Stored

section Row

variable {c : RowBuffers} {i : Nat} {kind : ResultKind} {cell : StoredCell} {buffer : Bytes}

/-- A `SMALLINT` has a number of 16 bits. -/
theorem StoredCell.short_number {n : Int64} (hcol : cell.col.sqltype = .short) (h : cell.catalogCell = .number n) :
    ∃ k : Int16, n = k.toInt64 := by
  unfold catalogCell accessed at h
  cases hcell : cell.cell with
  | none =>
      rw [hcell] at h
      cases h
  | some wire =>
      rw [hcell] at h
      exact short_accessed hcol h

/-- An `INTEGER` has one of 32. -/
theorem StoredCell.long_number {n : Int64} (hcol : cell.col.sqltype = .long) (h : cell.catalogCell = .number n) :
    ∃ k : Int32, n = k.toInt64 := by
  unfold catalogCell accessed at h
  cases hcell : cell.cell with
  | none =>
      rw [hcell] at h
      cases h
  | some wire =>
      rw [hcell] at h
      exact long_accessed hcol h

/-- **A cell is held.** -/
theorem StoredCell.holds (hcol : c.columns[i]? = some cell.col) (hbuffer : c.buffers[i]? = some buffer)
    (hindicator : c.indicators[i]? = some cell.indicator) (hin : cell.InBuffer buffer)
    (hkind : kind.Describes cell.col) : c.Holds i kind cell.catalogCell := by
  obtain ⟨rest, rfl⟩ := hin.frame
  have hread (narrow : Nat) (hnarrow : narrow ≤ cell.col.bufferSize) : ∃ n, c.number i narrow = .ok n := by
    have hfits : (peekNat (cell.frame ++ rest) 0 narrow).isSome = true := by
      rw [peekNat_isSome_iff, Nat.zero_add, hin.size]
      exact hnarrow
    obtain ⟨n, hn⟩ := Option.isSome_iff_exists.mp hfits
    refine ⟨n, ?_⟩
    unfold RowBuffers.number
    rw [hbuffer, Option.bind_some, hn]
    rfl
  have hnull : c.isNull i = .ok (decide (cell.indicator = -1)) := by
    unfold RowBuffers.isNull
    rw [hindicator]
    rfl
  unfold StoredCell.catalogCell StoredCell.accessed
  cases hcell : cell.cell with
  | none =>
      rw [decide_eq_true (cell.null_iff.mpr hcell)] at hnull
      refine .null hnull ?_
      rintro width rfl narrow hnarrow
      exact hread narrow (Nat.le_trans hnarrow hkind.2)
  | some wire =>
      have hne : cell.indicator ≠ -1 := by
        intro h
        rw [cell.null_iff.mp h] at hcell
        cases hcell
      rw [decide_eq_false hne] at hnull
      have hframed := cell.framed wire hcell
      rw [Option.map_some]
      cases kind with
      | text =>
          obtain ⟨s, hs, htext⟩ := text_framed hkind hframed rest
          dsimp only
          rw [hs]
          refine .text hnull ?_
          unfold RowBuffers.getText
          rw [hcol, Option.bind_some, hbuffer, Option.bind_some, htext]
          rfl
      | number width =>
          obtain ⟨n, hn, hnumber⟩ := number_framed hkind.1 hframed rest
          dsimp only
          rw [hn]
          refine .number hnull ?_
          intro narrow hnarrow
          unfold RowBuffers.number
          rw [hbuffer, Option.bind_some, hnumber narrow (Nat.le_trans hnarrow hkind.2)]
          rfl
      | blob =>
          obtain ⟨hid, hpeek⟩ := blob_framed hkind hframed rest
          dsimp only
          rw [hid]
          refine .blob hnull ?_
          unfold RowBuffers.getBlobId
          rw [hbuffer, Option.bind_some, hpeek]
          rfl

/-- **A row that is fetched is held**, whatever the row before it has left in the buffers. -/
theorem RowBuffers.store_holds {kinds : List ResultKind} {row : List StoredCell} (hinv : c.Inv)
    (hrow : FitRow c.columns row) (hkinds : List.Forall₂ ResultKind.Describes kinds c.columns) :
    ∃ c', c.store (row.map StoredCell.sent) = some c' ∧ c'.Inv ∧ c'.columns = c.columns ∧
      c'.HoldsRow kinds (row.map StoredCell.catalogCell) := by
  obtain ⟨hcols, hfits⟩ := hrow
  change row.map StoredCell.col = c.columns at hcols
  have hsizes : c.buffers.map List.length = row.map fun cell => cell.col.bufferSize := by
    rw [hinv.sizes, ← hcols, List.map_map]
    rfl
  obtain ⟨buffers, hstore, hin⟩ := storeRow_inBuffer hfits hsizes
  refine ⟨{ c with buffers, indicators := (row.map StoredCell.sent).map Prod.fst,
                   bytesRead := c.bytesRead + c.rowWidthBytes }, ?_, ⟨?_, hinv.width⟩, rfl, ?_, ?_⟩
  · unfold RowBuffers.store
    rw [hstore, Option.map_some]
  · have hsize : List.Forall₂ (· = ·) (buffers.map List.length) (row.map fun cell => cell.col.bufferSize) := by
      rw [List.forall₂_map_left_iff, List.forall₂_map_right_iff]
      exact hin.flip.imp fun _ _ h => h.size
    rw [List.forall₂_eq_eq_eq] at hsize
    show buffers.map List.length = c.columns.map FirebirdColumnDesc.bufferSize
    rw [hsize, ← hcols, List.map_map]
    rfl
  · rw [List.length_map, hkinds.length_eq, ← hcols, List.length_map]
  · intro i kind cell hkind hcell
    rw [List.getElem?_map, Option.map_eq_some_iff] at hcell
    obtain ⟨stored, hstored, rfl⟩ := hcell
    have hcol : c.columns[i]? = some stored.col := by
      rw [← hcols, List.getElem?_map, hstored]
      rfl
    obtain ⟨hlt, hget⟩ := List.getElem?_eq_some_iff.mp hstored
    have hlt' : i < buffers.length := hin.length_eq ▸ hlt
    have hbuffer := hin.get hlt hlt'
    rw [List.get_eq_getElem, List.get_eq_getElem, hget] at hbuffer
    refine StoredCell.holds hcol (List.getElem?_eq_getElem hlt') ?_ hbuffer ?_
    · show ((row.map StoredCell.sent).map Prod.fst)[i]? = _
      rw [List.getElem?_map, List.getElem?_map, hstored]
      rfl
    · obtain ⟨hlt, hget⟩ := List.getElem?_eq_some_iff.mp hkind
      obtain ⟨hlt', hget'⟩ := List.getElem?_eq_some_iff.mp hcol
      have hdescribes := hkinds.get hlt hlt'
      rwa [List.get_eq_getElem, List.get_eq_getElem, hget, hget'] at hdescribes

end Row

/-! ## A whole cursor -/

/-- The rows of an answer, as the server stores them: in columns of these kinds, and with `P`. -/
structure CatalogAnswer.Holds (answer : CatalogAnswer) (kinds : List ResultKind) (P : List CatalogCell → Prop)
    (rows : List (List StoredCell)) : Prop where
  described : List.Forall₂ ResultKind.Describes kinds (answer.vars.map describeColumn)
  fit : ∀ row ∈ rows, FitRow (answer.vars.map describeColumn) row
  cells : ∀ row ∈ rows, P (row.map StoredCell.catalogCell)
  sent : answer.rows = rows.map fun row => row.map StoredCell.sent

section Cursor

variable {α : Type} {mapRow : RowBuffers → Except Stop α} {kinds : List ResultKind} {P good : List CatalogCell → Prop}
  {out : List CatalogCell → α}

theorem fetchRows_cons {error : Option Bytes} {c c' : RowBuffers} {cells : List (Int16 × Bytes)}
    (h : c.store cells = some c') (rest : List (List (Int16 × Bytes))) :
    fetchRows mapRow error c (cells :: rest) =
      mapRow c' >>= fun a => fetchRows mapRow error c' rest >>= fun as => .ok (a :: as) := by
  conv_lhs => unfold fetchRows
  rw [h]
  rfl

/-- **A cursor is read row by row**, each row into the buffers that the one before was read from. -/
theorem fetchRows_returns (error : Option Bytes)
    (hmap : ∀ c cells, c.HoldsRow kinds cells → P cells →
      Returns (good cells) (· = out cells) (· ≠ .beyondBuffer) (mapRow c))
    {rows : List (List StoredCell)} {c : RowBuffers} (hinv : c.Inv)
    (hkinds : List.Forall₂ ResultKind.Describes kinds c.columns) (hfit : ∀ row ∈ rows, FitRow c.columns row)
    (hP : ∀ row ∈ rows, P (row.map StoredCell.catalogCell)) :
    Returns (error = none ∧ ∀ row ∈ rows, good (row.map StoredCell.catalogCell))
      (· = rows.map fun row => out (row.map StoredCell.catalogCell)) (· ≠ .beyondBuffer)
      (fetchRows mapRow error c (rows.map fun row => row.map StoredCell.sent)) := by
  induction rows generalizing c with
  | nil =>
      cases error with
      | none => exact (Returns.done rfl).mono (iff_of_true trivial ⟨rfl, List.forall_mem_nil _⟩) fun _ h => h.symm
      | some e =>
          refine ⟨fun h => absurd h.1 nofun, fun _ => ⟨.thrown e, rfl, nofun⟩⟩
  | cons row rows ih =>
      obtain ⟨hrow, hrest⟩ := List.forall_mem_cons.mp hfit
      obtain ⟨hProw, hPrest⟩ := List.forall_mem_cons.mp hP
      obtain ⟨c', hstore, hinv', hcols, hholds⟩ := RowBuffers.store_holds hinv hrow hkinds
      have hrows := ih hinv' (hcols ▸ hkinds) (hcols ▸ hrest) hPrest
      show Returns _ _ _
        (fetchRows mapRow error c (row.map StoredCell.sent :: rows.map fun row => row.map StoredCell.sent))
      rw [fetchRows_cons hstore]
      refine ((hmap c' _ hholds hProw).bind fun a ha => hrows.bind fun as has => Returns.done ?_).mono ?_ fun _ => id
      · rw [ha, has, List.map_cons]
      · rw [List.forall_mem_cons]
        tauto

/-- **A query that is read to its end**: no accessor leaves its buffer, and the rows are what they are to be, exactly if
    nothing that was asked for could not be read. -/
theorem fetchQuery_returns {server : CatalogServer} {sql : Bytes} {answer : CatalogAnswer}
    {rows : List (List StoredCell)}
    (hmap : ∀ c cells, c.HoldsRow kinds cells → P cells →
      Returns (good cells) (· = out cells) (· ≠ .beyondBuffer) (mapRow c))
    (hopen : server.openCursor sql = .ok answer) (hholds : answer.Holds kinds P rows) :
    Returns (answer.error = none ∧ ∀ row ∈ rows, good (row.map StoredCell.catalogCell))
      (· = rows.map fun row => out (row.map StoredCell.catalogCell)) (· ≠ .beyondBuffer)
      (server.fetchQuery sql mapRow) := by
  unfold CatalogServer.fetchQuery
  rw [hopen]
  show Returns _ _ _ (fetchRows mapRow answer.error (allocateBuffers answer.vars) answer.rows)
  rw [hholds.sent]
  exact fetchRows_returns answer.error hmap (allocateBuffers_inv _) hholds.described hholds.fit hholds.cells

end Cursor

end FirebirdScan
