import FirebirdScan.Metadata.Functions

/-!
# `Metadata.DatabaseHealth` — the state of a database (`firebird_health`)

`BuildHealth` asks two queries. What the first throws is thrown; what the second, of the monitoring tables, throws is
swallowed, and its columns are `NULL`. The warnings are computed beside the columns.

- `health_consistent` — over any calls there is one row at most, and its warnings are what its columns say;
- `health_stored` — the monitoring columns are read within their buffers exactly if they are as wide as the accessors
  take them to be, and they are what the server has stored exactly if each number fits its accessor.
-/

namespace FirebirdScan

open Emission Raising

/-! ## The source -/

/-- `FB_HEALTH_GAP_THRESHOLD` -/
def fbHealthGapThreshold : Int64 := 1000000

inductive HealthWarning where
  | oitGapHigh | oatGapHigh | sweepDisabled | forcedWritesOff | charsetNone | monUnavailable
deriving DecidableEq

def HealthWarning.text : HealthWarning → Bytes
  | oitGapHigh => utf8 "oit_gap_high"
  | oatGapHigh => utf8 "oat_gap_high"
  | sweepDisabled => utf8 "sweep_disabled"
  | forcedWritesOff => utf8 "forced_writes_off"
  | charsetNone => utf8 "charset_none"
  | monUnavailable => utf8 "mon_unavailable"

/-- The fields of `HealthInfo` that come from the monitoring tables. -/
structure Monitoring where
  odsMajor : Int16 := 0
  odsMinor : Int16 := 0
  sqlDialect : Int16 := 0
  pageSize : Int32 := 0
  forcedWrites : Bool := false
  sweepInterval : Int32 := 0
  oit : Int64 := 0
  oat : Int64 := 0
  ost : Int64 := 0
  nextTx : Int64 := 0
  attachments : Int32 := 0
deriving DecidableEq

/-- `HealthInfo`; `mon_ok` is whether there is a `Monitoring`. -/
structure HealthInfo where
  engineVersion : Bytes := []
  defaultCharset : Bytes := []
  mon : Option Monitoring := none
  warnings : List HealthWarning := []

def engineSql : Bytes :=
  utf8 ("SELECT rdb$get_context('SYSTEM','ENGINE_VERSION'), " ++
    "       TRIM(RDB$CHARACTER_SET_NAME) " ++
    "  FROM RDB$DATABASE")

def monitoringSql : Bytes :=
  utf8 ("SELECT m.MON$ODS_MAJOR, m.MON$ODS_MINOR, m.MON$SQL_DIALECT, " ++
    "       m.MON$PAGE_SIZE, m.MON$FORCED_WRITES, m.MON$SWEEP_INTERVAL, " ++
    "       m.MON$OLDEST_TRANSACTION, m.MON$OLDEST_ACTIVE, " ++
    "       m.MON$OLDEST_SNAPSHOT, m.MON$NEXT_TRANSACTION, " ++
    "       (SELECT COUNT(*) FROM MON$ATTACHMENTS) " ++
    "  FROM MON$DATABASE m")

/-- `if (cur->Fetch())`, with what is done with the row. -/
def CatalogServer.fetchFirst {α : Type} (server : CatalogServer) (sql : Bytes) (mapRow : RowBuffers → Except Stop α) :
    Except Stop (Option α) := do
  let answer ← (server.openCursor sql).mapError .thrown
  match answer.rows, answer.error with
  | cells :: _, _ => do
      let c ← Stop.within ((allocateBuffers answer.vars).store cells)
      let row ← mapRow c
      .ok (some row)
  | [], some e => .error (.thrown e)
  | [], none => .ok none

/-- `cur->IsNull(i) ? std::string() : cur->GetText(i)` -/
def RowBuffers.textOrEmpty (c : RowBuffers) (i : Nat) : Except Stop Bytes := do
  if ← c.isNull i then .ok [] else c.getText i

/-- A row of the first query. -/
def readEngine (c : RowBuffers) : Except Stop (Bytes × Bytes) := do
  let engineVersion ← c.textOrEmpty 0
  let defaultCharset ← c.textOrEmpty 1
  .ok (engineVersion, defaultCharset)

/-- The page size in a column of this type. -/
def readPageSizeAs (c : RowBuffers) : SqlType → Except Stop Int32
  | .short => (c.getShort 3).map Int16.toInt32
  | .long => c.getLong 3
  | _ => .ok 0

/-- The page size, by the type that the server describes. -/
def readPageSize (c : RowBuffers) : Except Stop Int32 := do
  let col ← Stop.within c.columns[3]?
  readPageSizeAs c col.sqltype

/-- A row of the monitoring tables. -/
def readMonitoring (c : RowBuffers) : Except Stop Monitoring := do
  let odsMajor ← c.getShort 0
  let odsMinor ← c.getShort 1
  let sqlDialect ← c.getShort 2
  let pageSize ← readPageSize c
  let forcedWrites ← c.getShort 4
  let sweepInterval ← c.getLong 5
  let oit ← c.getInt64 6
  let oat ← c.getInt64 7
  let ost ← c.getInt64 8
  let nextTx ← c.getInt64 9
  let attachments ← c.getInt64 10
  .ok { odsMajor, odsMinor, sqlDialect, pageSize, forcedWrites := forcedWrites != 0, sweepInterval, oit, oat, ost, nextTx,
        attachments := attachments.toInt32 }

/-- `catch (...)`, which sees exceptions only. -/
def Stop.caught {α : Type} (x : Except Stop α) (handler : α) : Except Stop α :=
  match x with
  | .error .beyondBuffer => .error .beyondBuffer
  | .error .overflow => .error .overflow
  | .error _ => .ok handler
  | .ok a => .ok a

/-- `h.next_tx - h.oit`, and `h.next_tx - h.oat`. -/
def gap (nextTx oldest : Int64) : Except Stop Int64 :=
  match int64 (nextTx.toInt - oldest.toInt) with
  | some n => .ok (Int64.ofInt n)
  | none => .error .overflow

/-- The warnings of the monitoring tables. -/
def monitoringWarnings (m : Monitoring) : Except Stop (List HealthWarning) := do
  let oitGap ← gap m.nextTx m.oit
  let oatGap ← gap m.nextTx m.oat
  .ok ((if oitGap > fbHealthGapThreshold then [.oitGapHigh] else []) ++
    (if oatGap > fbHealthGapThreshold then [.oatGapHigh] else []) ++
    (if m.sweepInterval = 0 then [.sweepDisabled] else []) ++ (if m.forcedWrites then [] else [.forcedWritesOff]))

/-- The warnings, in their order. -/
def healthWarnings (defaultCharset : Bytes) (mon : Option Monitoring) : Except Stop (List HealthWarning) := do
  let warnings ← mon.elim (.ok []) monitoringWarnings
  .ok (warnings ++ (if defaultCharset = utf8 "NONE" then [.charsetNone] else []) ++
    (if mon.isNone then [.monUnavailable] else []))

/-- `BuildHealth`. -/
def buildHealth (server : CatalogServer) : Except Stop HealthInfo := do
  let engine ← server.fetchFirst engineSql readEngine
  let (engineVersion, defaultCharset) := engine.getD ([], [])
  let mon ← Stop.caught (server.fetchFirst monitoringSql readMonitoring) none
  let warnings ← healthWarnings defaultCharset mon
  .ok { engineVersion, defaultCharset, mon, warnings }

/-- The row; `none` is `NULL`. -/
structure HealthRow where
  engineVersion : Bytes
  odsVersion : Option Bytes
  sqlDialect : Option Int32
  defaultCharset : Bytes
  pageSize : Option Int32
  forcedWrites : Option Bool
  sweepInterval : Option Int32
  oldestTransaction : Option Int64
  oldestActive : Option Int64
  oldestSnapshot : Option Int64
  nextTransaction : Option Int64
  oitGap : Option Int64
  oatGap : Option Int64
  attachments : Option Int32
  warnings : List Bytes

/-- `bigint_or_null` of a difference. -/
def HealthInfo.gapOrNull (h : HealthInfo) (oldest : Monitoring → Int64) : Except Stop (Option Int64) :=
  h.mon.elim (.ok none) fun m => (gap m.nextTx (oldest m)).map some

/-- The values that are set. -/
def HealthInfo.row (h : HealthInfo) (oitGap oatGap : Option Int64) : HealthRow where
  engineVersion := h.engineVersion
  odsVersion := h.mon.map fun m => utf8 (toString m.odsMajor.toInt) ++ utf8 "." ++ utf8 (toString m.odsMinor.toInt)
  sqlDialect := h.mon.map fun m => m.sqlDialect.toInt32
  defaultCharset := h.defaultCharset
  pageSize := h.mon.map Monitoring.pageSize
  forcedWrites := h.mon.map Monitoring.forcedWrites
  sweepInterval := h.mon.map Monitoring.sweepInterval
  oldestTransaction := h.mon.map Monitoring.oit
  oldestActive := h.mon.map Monitoring.oat
  oldestSnapshot := h.mon.map Monitoring.ost
  nextTransaction := h.mon.map Monitoring.nextTx
  oitGap := oitGap
  oatGap := oatGap
  attachments := h.mon.map Monitoring.attachments
  warnings := h.warnings.map HealthWarning.text

/-- The row of a `HealthInfo`, whose texts from the server become values. -/
def healthRow (h : HealthInfo) : Except Stop HealthRow := do
  let _ ← newText h.engineVersion
  let _ ← newText h.defaultCharset
  let oitGap ← h.gapOrNull Monitoring.oit
  let oatGap ← h.gapOrNull Monitoring.oat
  .ok (h.row oitGap oatGap)

/-- The row of a call that computes it, with the session that its lease gives it. -/
def healthChunk (lease : Except Bytes CatalogServer) : Except Stop (List HealthRow) := do
  let server ← lease.mapError .thrown
  let h ← buildHealth server
  let row ← healthRow h
  .ok [row]

/-- `HealthFunction`; its state is `emitted`. -/
def healthFunction (emitted : Bool) (lease : Except Bytes CatalogServer) : Except Stop (List HealthRow) × Bool :=
  if emitted then (.ok [], true)
  else
    match healthChunk lease with
    | .ok chunk => (.ok chunk, true)
    | .error e => (.error e, false)

/-- What calls return, one after the other. -/
def healthCalls : Bool → List (Except Bytes CatalogServer) → List (Except Stop (List HealthRow))
  | _, [] => []
  | emitted, lease :: leases =>
      (healthFunction emitted lease).1 :: healthCalls (healthFunction emitted lease).2 leases

/-! ## What a row says -/

/-- The warnings that the columns of a row give. -/
def HealthRow.deserved (row : HealthRow) : List HealthWarning :=
  (if row.oitGap.any (· > fbHealthGapThreshold) then [.oitGapHigh] else []) ++
    (if row.oatGap.any (· > fbHealthGapThreshold) then [.oatGapHigh] else []) ++
    (if row.sweepInterval = some 0 then [.sweepDisabled] else []) ++
    (if row.forcedWrites = some false then [.forcedWritesOff] else []) ++
    (if row.defaultCharset = utf8 "NONE" then [.charsetNone] else []) ++
    (if row.odsVersion = none then [.monUnavailable] else [])

/-- Which of the monitoring columns are `NULL`. -/
def HealthRow.nulls (row : HealthRow) : List Bool :=
  [row.odsVersion.isNone, row.sqlDialect.isNone, row.pageSize.isNone, row.forcedWrites.isNone, row.sweepInterval.isNone,
    row.oldestTransaction.isNone, row.oldestActive.isNone, row.oldestSnapshot.isNone, row.nextTransaction.isNone,
    row.oitGap.isNone, row.oatGap.isNone, row.attachments.isNone]

/-- The row agrees with itself: its warnings are those of its columns, in order; the monitoring columns are `NULL`
    together; and a gap is the difference of the columns it is between, as a number. -/
structure HealthRow.Consistent (row : HealthRow) : Prop where
  warnings : row.warnings = row.deserved.map HealthWarning.text
  together : ∀ null ∈ row.nulls, null = row.odsVersion.isNone
  oitGap : row.oitGap.map Int64.toInt =
    Option.map₂ (fun next oldest => next.toInt - oldest.toInt) row.nextTransaction row.oldestTransaction
  oatGap : row.oatGap.map Int64.toInt =
    Option.map₂ (fun next oldest => next.toInt - oldest.toInt) row.nextTransaction row.oldestActive

/-- The difference is one of 64 bits. -/
def GapFits (nextTx oldest : Int64) : Prop :=
  -2 ^ 63 ≤ nextTx.toInt - oldest.toInt ∧ nextTx.toInt - oldest.toInt < 2 ^ 63

theorem gap_returns (nextTx oldest : Int64) :
    Returns (GapFits nextTx oldest) (fun n => n.toInt = nextTx.toInt - oldest.toInt) (· = .overflow)
      (gap nextTx oldest) := by
  unfold gap GapFits
  refine ⟨?_, ?_⟩
  · rintro ⟨hlo, hhi⟩
    rw [int64_of_mem hlo hhi]
    exact ⟨_, rfl, Int64.toInt_ofInt_of_le hlo hhi⟩
  · intro hnot
    rw [int64, if_neg hnot]
    exact ⟨_, rfl, rfl⟩

/-- A row whose gaps were computed, once for the warnings and once for the columns. -/
theorem row_consistent {engineVersion defaultCharset : Bytes} {mon : Option Monitoring} {warnings : List HealthWarning}
    {oitGap oatGap : Option Int64} (hwarnings : healthWarnings defaultCharset mon = .ok warnings)
    (hoit : HealthInfo.gapOrNull { mon } Monitoring.oit = .ok oitGap)
    (hoat : HealthInfo.gapOrNull { mon } Monitoring.oat = .ok oatGap) :
    (HealthInfo.row { engineVersion, defaultCharset, mon, warnings } oitGap oatGap).Consistent := by
  cases mon with
  | none =>
      obtain rfl := Except.ok.inj hwarnings
      obtain rfl := Except.ok.inj hoit
      obtain rfl := Except.ok.inj hoat
      exact ⟨rfl, by simp [HealthRow.nulls, HealthInfo.row], rfl, rfl⟩
  | some m =>
      obtain ⟨ofMonitoring, hmonitoring, hwarnings⟩ := bind_ok_iff.mp hwarnings
      obtain ⟨oit, hoitGap, hmonitoring⟩ := bind_ok_iff.mp hmonitoring
      obtain ⟨oat, hoatGap, hmonitoring⟩ := bind_ok_iff.mp hmonitoring
      obtain rfl := Except.ok.inj hmonitoring
      obtain rfl := Except.ok.inj hwarnings
      change (gap m.nextTx m.oit).map some = _ at hoit
      change (gap m.nextTx m.oat).map some = _ at hoat
      rw [hoitGap] at hoit
      rw [hoatGap] at hoat
      obtain rfl := Except.ok.inj hoit
      obtain rfl := Except.ok.inj hoat
      refine ⟨congrArg (List.map HealthWarning.text) ?_, by simp [HealthRow.nulls, HealthInfo.row], ?_, ?_⟩
      · unfold HealthRow.deserved HealthInfo.row
        cases hwrites : m.forcedWrites <;> simp [hwrites]
      · exact congrArg some ((gap_returns m.nextTx m.oit).of_ok hoitGap).2
      · exact congrArg some ((gap_returns m.nextTx m.oat).of_ok hoatGap).2

/-- What is left of a query whose exceptions are swallowed. -/
theorem caught_eq_none_iff {α : Type} {x : Except Stop (Option α)} {result : Option α}
    (h : Stop.caught x none = .ok result) : result = none ↔ ∀ a, x ≠ .ok (some a) := by
  cases x with
  | ok value =>
      obtain rfl := Except.ok.inj h
      cases value with
      | none => exact iff_of_true rfl fun a ha => nomatch Except.ok.inj ha
      | some a => exact iff_of_false nofun fun hne => hne a rfl
  | error e =>
      cases e with
      | beyondBuffer | overflow => cases h
      | invalidUnicode text => exact iff_of_true (Except.ok.inj h).symm nofun
      | thrown message => exact iff_of_true (Except.ok.inj h).symm nofun

theorem healthChunk_ok {lease : Except Bytes CatalogServer} {chunk : List HealthRow} (h : healthChunk lease = .ok chunk) :
    ∃ server row, lease = .ok server ∧ chunk = [row] ∧ row.Consistent ∧
      (row.odsVersion = none ↔ ∀ m, server.fetchFirst monitoringSql readMonitoring ≠ .ok (some m)) := by
  obtain ⟨server, hserver, h⟩ := bind_ok_iff.mp h
  obtain ⟨info, hinfo, h⟩ := bind_ok_iff.mp h
  obtain ⟨row, hrow, h⟩ := bind_ok_iff.mp h
  obtain ⟨engine, -, hinfo⟩ := bind_ok_iff.mp hinfo
  obtain ⟨mon, hmon, hinfo⟩ := bind_ok_iff.mp hinfo
  obtain ⟨warnings, hwarnings, hinfo⟩ := bind_ok_iff.mp hinfo
  obtain rfl := Except.ok.inj hinfo
  obtain ⟨_, -, hrow⟩ := bind_ok_iff.mp hrow
  obtain ⟨_, -, hrow⟩ := bind_ok_iff.mp hrow
  obtain ⟨oitGap, hoit, hrow⟩ := bind_ok_iff.mp hrow
  obtain ⟨oatGap, hoat, hrow⟩ := bind_ok_iff.mp hrow
  obtain rfl := Except.ok.inj hrow
  have hnull : (mon.map fun m => utf8 (toString m.odsMajor.toInt) ++ utf8 "." ++ utf8 (toString m.odsMinor.toInt)) = none ↔
      mon = none := Option.map_eq_none_iff
  refine ⟨server, _, mapError_ok_iff.mp hserver, (Except.ok.inj h).symm, row_consistent hwarnings hoit hoat,
    hnull.trans (caught_eq_none_iff hmon)⟩

theorem healthCalls_eq (emitted : Bool) (leases : List (Except Bytes CatalogServer)) :
    healthCalls emitted leases = handOut healthChunk emitted leases := by
  induction leases generalizing emitted with
  | nil => cases emitted <;> rfl
  | cons lease leases ih =>
      unfold healthCalls
      rw [ih]
      cases emitted with
      | true => rfl
      | false =>
          unfold healthFunction
          rw [handOut]
          cases healthChunk lease <;> rfl

/-- **The rows of `firebird_health`.** Calls throw, each by its own attempt, until one has a row, and return nothing from
    then on. The row agrees with itself, and its monitoring columns are `NULL` exactly if the query of the monitoring
    tables threw, or returned no row. -/
theorem health_consistent (leases : List (Except Bytes CatalogServer)) :
    ((∀ lease ∈ leases, ∃ e, healthChunk lease = .error e) ∧ healthCalls false leases = leases.map healthChunk) ∨
    ∃ before server after row, leases = before ++ .ok server :: after ∧
      (∀ lease ∈ before, ∃ e, healthChunk lease = .error e) ∧
      healthCalls false leases = before.map healthChunk ++ .ok [row] :: after.map (fun _ => .ok []) ∧ row.Consistent ∧
      (row.odsVersion = none ↔ ∀ m, server.fetchFirst monitoringSql readMonitoring ≠ .ok (some m)) := by
  rw [healthCalls_eq]
  have hcalls : HandsOut healthChunk leases _ := handsOut_handOut leases
  generalize handOut healthChunk false leases = results at hcalls ⊢
  cases hcalls with
  | never hfail => exact .inl ⟨hfail, rfl⟩
  | once hbefore hmake =>
      obtain ⟨server, row, rfl, rfl, hconsistent, hnull⟩ := healthChunk_ok hmake
      exact .inr ⟨_, server, _, row, rfl, hbefore, rfl, hconsistent, hnull⟩

/-! ## What is stored -/

/-- The number in a column. -/
def cellNumber (cells : List CatalogCell) (i : Nat) : Int64 :=
  match cells[i]? with
  | some (.number n) => n
  | _ => 0

/-- The text in a column. -/
def cellText (cells : List CatalogCell) (i : Nat) : Bytes :=
  match cells[i]? with
  | some (.text s) => s
  | _ => []

/-- The bytes of a column. -/
def columnWidth (vars : List XSqlVar) (i : Nat) : Nat := (vars[i]?.map fun v => (describeColumn v).bufferSize).getD 0

/-- The columns of the monitoring query that are read at a fixed width, which is theirs in recent versions. The page size
    is not. -/
def monitoringWidths : List (Nat × Nat) :=
  [(0, 2), (1, 2), (2, 2), (4, 2), (5, 4), (6, 8), (7, 8), (8, 8), (9, 8), (10, 8)]

/-- The columns are as wide as they are taken to be. -/
def WideEnough (vars : List XSqlVar) : Prop := ∀ read ∈ monitoringWidths, read.2 ≤ columnWidth vars read.1

/-- What the accessors make of the cells of the monitoring row. -/
def monitoringOf (vars : List XSqlVar) (cells : List CatalogCell) : Monitoring where
  odsMajor := (cellNumber cells 0).toInt16
  odsMinor := (cellNumber cells 1).toInt16
  sqlDialect := (cellNumber cells 2).toInt16
  pageSize := if columnWidth vars 3 = 8 then 0 else (cellNumber cells 3).toInt32
  forcedWrites := (cellNumber cells 4).toInt16 != 0
  sweepInterval := (cellNumber cells 5).toInt32
  oit := cellNumber cells 6
  oat := cellNumber cells 7
  ost := cellNumber cells 8
  nextTx := cellNumber cells 9
  attachments := (cellNumber cells 10).toInt32

/-- Every column is the number that is stored. -/
structure Monitoring.Exact (m : Monitoring) (cells : List CatalogCell) : Prop where
  odsMajor : m.odsMajor.toInt64 = cellNumber cells 0
  odsMinor : m.odsMinor.toInt64 = cellNumber cells 1
  sqlDialect : m.sqlDialect.toInt64 = cellNumber cells 2
  pageSize : m.pageSize.toInt64 = cellNumber cells 3
  forcedWrites : m.forcedWrites = (cellNumber cells 4 != 0)
  sweepInterval : m.sweepInterval.toInt64 = cellNumber cells 5
  oit : m.oit = cellNumber cells 6
  oat : m.oat = cellNumber cells 7
  ost : m.ost = cellNumber cells 8
  nextTx : m.nextTx = cellNumber cells 9
  attachments : m.attachments.toInt64 = cellNumber cells 10

/-- The numbers fit what they are read into: 16 bits, the type of a page size, a flag, 32 bits. -/
structure NumbersFit (vars : List XSqlVar) (cells : List CatalogCell) : Prop where
  short : ∀ i ∈ [0, 1, 2], -2 ^ 15 ≤ (cellNumber cells i).toInt ∧ (cellNumber cells i).toInt < 2 ^ 15
  pageSize : columnWidth vars 3 = 8 → cellNumber cells 3 = 0
  forcedWrites : (cellNumber cells 4).toInt % 2 ^ 16 = 0 → cellNumber cells 4 = 0
  long : ∀ i ∈ [5, 10], -2 ^ 31 ≤ (cellNumber cells i).toInt ∧ (cellNumber cells i).toInt < 2 ^ 31

theorem toInt16_exact_iff (n : Int64) : n.toInt16.toInt64 = n ↔ -2 ^ 15 ≤ n.toInt ∧ n.toInt < 2 ^ 15 := by
  rw [← Int64.toInt_inj, Int16.toInt_toInt64, Int64.toInt_toInt16]
  constructor
  · intro h
    have hlo := Int.le_bmod (x := n.toInt) (by decide : 0 < 2 ^ 16)
    have hhi := Int.bmod_lt (x := n.toInt) (by decide : 0 < 2 ^ 16)
    omega
  · rintro ⟨hlo, hhi⟩
    exact Int.bmod_eq_of_le (by omega) (by omega)

theorem toInt32_exact_iff (n : Int64) : n.toInt32.toInt64 = n ↔ -2 ^ 31 ≤ n.toInt ∧ n.toInt < 2 ^ 31 := by
  rw [← Int64.toInt_inj, Int32.toInt_toInt64, Int64.toInt_toInt32]
  constructor
  · intro h
    have hlo := Int.le_bmod (x := n.toInt) (by decide : 0 < 2 ^ 32)
    have hhi := Int.bmod_lt (x := n.toInt) (by decide : 0 < 2 ^ 32)
    omega
  · rintro ⟨hlo, hhi⟩
    exact Int.bmod_eq_of_le (by omega) (by omega)

/-- The flag is that of the low 16 bits. -/
theorem flag_exact_iff (n : Int64) : (n.toInt16 != 0) = (n != 0) ↔ (n.toInt % 2 ^ 16 = 0 → n = 0) := by
  have hlow : n.toInt16 = 0 ↔ n.toInt % 2 ^ 16 = 0 := by
    rw [← Int16.toInt_inj, Int64.toInt_toInt16, Int16.toInt_zero]
    exact Int.dvd_iff_bmod_eq_zero.symm.trans Int.dvd_iff_emod_eq_zero
  rw [← hlow, Bool.eq_iff_iff, bne_iff_ne, bne_iff_ne, not_iff_not]
  refine ⟨fun h => h.mp, fun h => ⟨h, ?_⟩⟩
  rintro rfl
  rfl

/-- **Where the columns are what is stored.** -/
theorem monitoringOf_exact_iff {vars : List XSqlVar} {cells : List CatalogCell}
    (hpage : columnWidth vars 3 ≠ 8 → (cellNumber cells 3).toInt32.toInt64 = cellNumber cells 3) :
    (monitoringOf vars cells).Exact cells ↔ NumbersFit vars cells := by
  have hpageSize : (monitoringOf vars cells).pageSize.toInt64 = cellNumber cells 3 ↔
      (columnWidth vars 3 = 8 → cellNumber cells 3 = 0) := by
    show (if columnWidth vars 3 = 8 then (0 : Int32) else _).toInt64 = _ ↔ _
    split_ifs with hwide
    · exact ⟨fun h _ => h.symm, fun h => (h hwide).symm⟩
    · exact iff_of_true (hpage hwide) fun h => absurd h hwide
  constructor
  · intro h
    refine ⟨?_, hpageSize.mp h.pageSize, (flag_exact_iff _).mp h.forcedWrites, ?_⟩
    · simp only [List.forall_mem_cons]
      exact ⟨(toInt16_exact_iff _).mp h.odsMajor, (toInt16_exact_iff _).mp h.odsMinor,
        (toInt16_exact_iff _).mp h.sqlDialect, List.forall_mem_nil _⟩
    · simp only [List.forall_mem_cons]
      exact ⟨(toInt32_exact_iff _).mp h.sweepInterval, (toInt32_exact_iff _).mp h.attachments, List.forall_mem_nil _⟩
  · intro h
    have hshort (i : Nat) (hi : i ∈ [0, 1, 2]) := (toInt16_exact_iff _).mpr (h.short i hi)
    have hlong (i : Nat) (hi : i ∈ [5, 10]) := (toInt32_exact_iff _).mpr (h.long i hi)
    exact
      { odsMajor := hshort 0 (by simp)
        odsMinor := hshort 1 (by simp)
        sqlDialect := hshort 2 (by simp)
        pageSize := hpageSize.mpr h.pageSize
        forcedWrites := (flag_exact_iff _).mpr h.forcedWrites
        sweepInterval := hlong 5 (by simp)
        oit := rfl
        oat := rfl
        ost := rfl
        nextTx := rfl
        attachments := hlong 10 (by simp) }

section Stored

variable {server : CatalogServer} {sql : Bytes} {answer : CatalogAnswer} {kinds : List ResultKind}
  {P : List CatalogCell → Prop} {row : List StoredCell} {rows : List (List StoredCell)}

/-- The first row of a query is read, and no other. -/
theorem fetchFirst_holds {α : Type} (mapRow : RowBuffers → Except Stop α) (hopen : server.openCursor sql = .ok answer)
    (hanswer : answer.Holds kinds P (row :: rows)) :
    ∃ c : RowBuffers, c.Inv ∧ c.columns = answer.vars.map describeColumn ∧
      c.HoldsRow kinds (row.map StoredCell.catalogCell) ∧
      server.fetchFirst sql mapRow = mapRow c >>= fun a => .ok (some a) := by
  obtain ⟨hrow, -⟩ := List.forall_mem_cons.mp hanswer.fit
  have hinv := allocateBuffers_inv answer.vars
  obtain ⟨c, hstore, hinv', hcols, hholds⟩ := RowBuffers.store_holds hinv hrow hanswer.described
  refine ⟨c, hinv', hcols, hholds, ?_⟩
  unfold CatalogServer.fetchFirst
  rw [hopen]
  show (match answer.rows, answer.error with
    | cells :: _, _ => _
    | [], some e => _
    | [], none => _) = _
  rw [hanswer.sent, List.map_cons]
  dsimp only
  rw [hstore]
  rfl

/-- The columns of numbers, each as wide as it is. -/
def numberKinds (vars : List XSqlVar) : List ResultKind := vars.map fun v => .number (describeColumn v).bufferSize

/-- A column of the monitoring row. -/
structure RowBuffers.HoldsNumber (c : RowBuffers) (vars : List XSqlVar) (cells : List CatalogCell) (i : Nat) : Prop where
  inv : c.Inv
  holds : c.Holds i (.number (columnWidth vars i)) (.number (cellNumber cells i))
  cell : cells[i]? = some (.number (cellNumber cells i))
  col : ∃ col, c.columns[i]? = some col ∧ col.bufferSize = columnWidth vars i ∧
    (ResultKind.number (columnWidth vars i)).Describes col

variable {c : RowBuffers} {vars : List XSqlVar} {cells : List CatalogCell} {i : Nat}

theorem RowBuffers.HoldsRow.holdsNumber (h : c.HoldsRow (numberKinds vars) cells) (hinv : c.Inv)
    (hcols : c.columns = vars.map describeColumn)
    (hdescribed : List.Forall₂ ResultKind.Describes (numberKinds vars) (vars.map describeColumn))
    (hpresent : ∀ cell ∈ cells, cell ≠ .null) (hi : i < vars.length) : c.HoldsNumber vars cells i := by
  have hvar : vars[i]? = some vars[i] := List.getElem?_eq_getElem hi
  have hwidth : columnWidth vars i = (describeColumn vars[i]).bufferSize := by
    unfold columnWidth
    rw [hvar]
    rfl
  have hkind : (numberKinds vars)[i]? = some (.number (columnWidth vars i)) := by
    unfold numberKinds
    rw [List.getElem?_map, hvar, hwidth]
    rfl
  have hcol : (vars.map describeColumn)[i]? = some (describeColumn vars[i]) := by
    rw [List.getElem?_map, hvar]
    rfl
  obtain ⟨cell, hcell, hholds⟩ := h.get hkind
  have hnumber : cell = .number (cellNumber cells i) := by
    cases hholds with
    | null => exact absurd rfl (hpresent _ (List.mem_of_getElem? hcell))
    | number =>
        unfold cellNumber
        rw [hcell]
  refine ⟨hinv, hnumber ▸ hholds, hnumber ▸ hcell, _, hcols ▸ hcol, hwidth.symm, ?_⟩
  obtain ⟨hlt, hget⟩ := List.getElem?_eq_some_iff.mp hkind
  obtain ⟨hlt', hget'⟩ := List.getElem?_eq_some_iff.mp hcol
  have hdescribes := hdescribed.get hlt hlt'
  rwa [List.get_eq_getElem, List.get_eq_getElem, hget, hget'] at hdescribes

namespace RowBuffers.HoldsNumber

/-- A number is read beyond its buffer exactly where it is read wider than it is. -/
theorem beyond (h : c.HoldsNumber vars cells i) {wanted : Nat} (hnarrow : ¬wanted ≤ columnWidth vars i) :
    c.number i wanted = .error .beyondBuffer := by
  obtain ⟨col, hcol, hwidth, -⟩ := h.col
  exact h.inv.number_beyond hcol (hwidth ▸ Nat.lt_of_not_le hnarrow)

theorem getShort (h : c.HoldsNumber vars cells i) :
    Returns (2 ≤ columnWidth vars i) (· = (cellNumber cells i).toInt16) (· = .beyondBuffer) (c.getShort i) where
  returns hwide := ⟨_, h.holds.getShort hwide, rfl⟩
  raises hnarrow := ⟨_, by rw [RowBuffers.getShort, h.beyond hnarrow]; rfl, rfl⟩

theorem getLong (h : c.HoldsNumber vars cells i) :
    Returns (4 ≤ columnWidth vars i) (· = (cellNumber cells i).toInt32) (· = .beyondBuffer) (c.getLong i) where
  returns hwide := ⟨_, h.holds.getLong hwide, rfl⟩
  raises hnarrow := ⟨_, by rw [RowBuffers.getLong, h.beyond hnarrow]; rfl, rfl⟩

theorem getInt64 (h : c.HoldsNumber vars cells i) :
    Returns (8 ≤ columnWidth vars i) (· = cellNumber cells i) (· = .beyondBuffer) (c.getInt64 i) where
  returns hwide := ⟨_, h.holds.getInt64 hwide, rfl⟩
  raises hnarrow := ⟨_, by rw [RowBuffers.getInt64, h.beyond hnarrow]; rfl, rfl⟩

end RowBuffers.HoldsNumber

/-- The column of the page size, with its cell. -/
theorem pageSize_column {row : List StoredCell} (hrow : c.columns = row.map StoredCell.col)
    (h : c.HoldsNumber vars (row.map StoredCell.catalogCell) 3) :
    ∃ stored : StoredCell, c.columns[3]? = some stored.col ∧ stored.col.bufferSize = columnWidth vars 3 ∧
      stored.catalogCell = .number (cellNumber (row.map StoredCell.catalogCell) 3) ∧
      (stored.col.sqltype = .short ∨ stored.col.sqltype = .long ∨ stored.col.sqltype = .int64) := by
  obtain ⟨col, hcol, hwidth, hnumber, -⟩ := h.col
  have hstored := hcol
  rw [hrow, List.getElem?_map, Option.map_eq_some_iff] at hstored
  obtain ⟨stored, hstored, rfl⟩ := hstored
  have hcell := h.cell
  rw [List.getElem?_map, hstored] at hcell
  exact ⟨stored, hcol, hwidth, Option.some.inj hcell, hnumber⟩

/-- **The page size is read at the width that it has.** -/
theorem readPageSize_eq {row : List StoredCell} (hrow : c.columns = row.map StoredCell.col)
    (h : c.HoldsNumber vars (row.map StoredCell.catalogCell) 3) :
    readPageSize c = .ok (monitoringOf vars (row.map StoredCell.catalogCell)).pageSize := by
  obtain ⟨stored, hcol, hwidth, hcell, hnumber⟩ := pageSize_column hrow h
  have hread : readPageSize c = readPageSizeAs c stored.col.sqltype := by
    unfold readPageSize
    rw [hcol]
    rfl
  rw [hread]
  change bufferSize stored.col.sqltype stored.col.sqllen = columnWidth vars 3 at hwidth
  unfold monitoringOf
  rcases hnumber with htype | htype | htype
  · rw [htype] at hwidth
    have htwo : columnWidth vars 3 = 2 := hwidth.symm
    obtain ⟨k, hk⟩ := stored.short_number htype hcell
    rw [htype, htwo, readPageSizeAs, h.holds.getShort (htwo ▸ Nat.le_refl 2), hk, Int16.toInt16_toInt64,
      if_neg (by decide), Int16.toInt32_toInt64]
    rfl
  · rw [htype] at hwidth
    have hfour : columnWidth vars 3 = 4 := hwidth.symm
    rw [htype, hfour, readPageSizeAs, if_neg (by decide)]
    exact h.holds.getLong (hfour ▸ Nat.le_refl 4)
  · rw [htype] at hwidth
    have height : columnWidth vars 3 = 8 := hwidth.symm
    rw [htype, height, if_pos rfl]
    rfl

/-- A page size in less than 64 bits is one of 32. -/
theorem pageSize_exact {row : List StoredCell} (hrow : c.columns = row.map StoredCell.col)
    (h : c.HoldsNumber vars (row.map StoredCell.catalogCell) 3) (hnarrow : columnWidth vars 3 ≠ 8) :
    (cellNumber (row.map StoredCell.catalogCell) 3).toInt32.toInt64 =
      cellNumber (row.map StoredCell.catalogCell) 3 := by
  obtain ⟨stored, -, hwidth, hcell, hnumber⟩ := pageSize_column hrow h
  change bufferSize stored.col.sqltype stored.col.sqllen = columnWidth vars 3 at hwidth
  rw [toInt32_exact_iff]
  rcases hnumber with htype | htype | htype
  · obtain ⟨k, hk⟩ := stored.short_number htype hcell
    have hlo := k.le_toInt
    have hhi := k.toInt_lt
    rw [hk, Int16.toInt_toInt64]
    omega
  · obtain ⟨k, hk⟩ := stored.long_number htype hcell
    rw [hk, Int32.toInt_toInt64]
    exact ⟨k.le_toInt, k.toInt_lt⟩
  · rw [htype] at hwidth
    exact absurd hwidth.symm hnarrow

/-- The monitoring row is read as it was stored, exactly if its columns are wide enough. -/
theorem readMonitoring_returns (hnumber : ∀ i < 11, c.HoldsNumber vars cells i)
    (hpage : readPageSize c = .ok (monitoringOf vars cells).pageSize) :
    Returns (WideEnough vars) (· = monitoringOf vars cells) (· = .beyondBuffer) (readMonitoring c) := by
  have h (i : Nat) (hi : i < 11) := hnumber i hi
  unfold readMonitoring
  rw [hpage]
  refine Returns.mono ((h 0 (by decide)).getShort.bind fun _ h0 => (h 1 (by decide)).getShort.bind fun _ h1 =>
    (h 2 (by decide)).getShort.bind fun _ h2 => (Returns.value _).bind fun _ h3 =>
    (h 4 (by decide)).getShort.bind fun _ h4 => (h 5 (by decide)).getLong.bind fun _ h5 =>
    (h 6 (by decide)).getInt64.bind fun _ h6 => (h 7 (by decide)).getInt64.bind fun _ h7 =>
    (h 8 (by decide)).getInt64.bind fun _ h8 => (h 9 (by decide)).getInt64.bind fun _ h9 =>
    (h 10 (by decide)).getInt64.bind fun _ h10 => Returns.done ?_) ?_ fun _ => id
  · rw [h0, h1, h2, h3, h4, h5, h6, h7, h8, h9, h10]
    rfl
  · simp [WideEnough, monitoringWidths]

/-- A text that is `NULL` is read as the empty one. -/
theorem textOrEmpty_eq (h : c.HoldsRow kinds cells) (hkind : kinds[i]? = some .text) :
    c.textOrEmpty i = .ok (cellText cells i) := by
  obtain ⟨cell, hcell, hholds⟩ := h.get hkind
  unfold RowBuffers.textOrEmpty cellText
  rw [hholds.isNull]
  rw [hcell]
  cases hholds with
  | null => rfl
  | text _ htext => exact htext

/-- The rest of `BuildHealth`, which needs both gaps. -/
theorem finish_returns (engineVersion defaultCharset : Bytes) (m : Monitoring) :
    Returns (GapFits m.nextTx m.oit ∧ GapFits m.nextTx m.oat)
      (fun info => info.engineVersion = engineVersion ∧ info.defaultCharset = defaultCharset ∧ info.mon = some m)
      (· = .overflow)
      (healthWarnings defaultCharset (some m) >>= fun warnings =>
        .ok ({ engineVersion, defaultCharset, mon := some m, warnings } : HealthInfo)) := by
  have hmonitoring : Returns (GapFits m.nextTx m.oit ∧ GapFits m.nextTx m.oat) (fun _ => True) (· = .overflow)
      (monitoringWarnings m) :=
    ((gap_returns m.nextTx m.oit).bind fun _ _ => (gap_returns m.nextTx m.oat).bind fun _ _ =>
      Returns.done trivial).mono (by rw [and_true]) fun _ => id
  have hwarnings : Returns (GapFits m.nextTx m.oit ∧ GapFits m.nextTx m.oat) (fun _ => True) (· = .overflow)
      (healthWarnings defaultCharset (some m)) :=
    (hmonitoring.bind fun _ _ => Returns.done trivial).mono (by rw [and_true]) fun _ => id
  exact (hwarnings.bind fun _ _ => Returns.done ⟨rfl, rfl, rfl⟩).mono (by rw [and_true]) fun _ => id

/-- **The state of the database.** An accessor leaves its buffer unless every monitoring column but the page size is as
    wide as it is taken to be. Where they are, there is a result exactly if the two gaps fit 64 bits, and it is what the
    server has stored exactly if each number fits what it is read into. -/
theorem health_stored {engine monitoring : CatalogAnswer} {engineRow monitoringRow : List StoredCell}
    {engineRows monitoringRows : List (List StoredCell)} (hengine : server.openCursor engineSql = .ok engine)
    (hengineRows : engine.Holds [.text, .text] (fun _ => True) (engineRow :: engineRows))
    (hmonitoring : server.openCursor monitoringSql = .ok monitoring) (hlength : monitoring.vars.length = 11)
    (hmonitoringRows : monitoring.Holds (numberKinds monitoring.vars) (fun cells => ∀ cell ∈ cells, cell ≠ .null)
      (monitoringRow :: monitoringRows)) :
    (buildHealth server ≠ .error .beyondBuffer ↔ WideEnough monitoring.vars) ∧
    ((∃ info, buildHealth server = .ok info) ↔ WideEnough monitoring.vars ∧
      GapFits (cellNumber (monitoringRow.map StoredCell.catalogCell) 9)
        (cellNumber (monitoringRow.map StoredCell.catalogCell) 6) ∧
      GapFits (cellNumber (monitoringRow.map StoredCell.catalogCell) 9)
        (cellNumber (monitoringRow.map StoredCell.catalogCell) 7)) ∧
    ∀ info, buildHealth server = .ok info →
      info.engineVersion = cellText (engineRow.map StoredCell.catalogCell) 0 ∧
      info.defaultCharset = cellText (engineRow.map StoredCell.catalogCell) 1 ∧
      ∃ mon, info.mon = some mon ∧
        (mon.Exact (monitoringRow.map StoredCell.catalogCell) ↔
          NumbersFit monitoring.vars (monitoringRow.map StoredCell.catalogCell)) := by
  obtain ⟨c, -, -, hrow, hfirst⟩ := fetchFirst_holds readEngine hengine hengineRows
  obtain ⟨c', hinv, hcols, hrow', hfirst'⟩ := fetchFirst_holds readMonitoring hmonitoring hmonitoringRows
  have hread : readEngine c = .ok (cellText (engineRow.map StoredCell.catalogCell) 0,
      cellText (engineRow.map StoredCell.catalogCell) 1) := by
    unfold readEngine
    rw [textOrEmpty_eq hrow (i := 0) rfl, textOrEmpty_eq hrow (i := 1) rfl]
    rfl
  have hnumber : ∀ i < 11, c'.HoldsNumber monitoring.vars (monitoringRow.map StoredCell.catalogCell) i := by
    intro i hi
    exact hrow'.holdsNumber hinv hcols hmonitoringRows.described (hmonitoringRows.cells _ List.mem_cons_self)
      (hlength ▸ hi)
  obtain ⟨hfit, -⟩ := List.forall_mem_cons.mp hmonitoringRows.fit
  have hcolumns : c'.columns = monitoringRow.map StoredCell.col := hcols.trans (Eq.symm hfit.1)
  have hmon := readMonitoring_returns hnumber (readPageSize_eq hcolumns (hnumber 3 (by decide)))
  have hexact := monitoringOf_exact_iff (pageSize_exact hcolumns (hnumber 3 (by decide)))
  have hbuild : buildHealth server =
      (Stop.caught (readMonitoring c' >>= fun m => .ok (some m)) none) >>= fun mon =>
        healthWarnings (cellText (engineRow.map StoredCell.catalogCell) 1) mon >>= fun warnings =>
          .ok { engineVersion := cellText (engineRow.map StoredCell.catalogCell) 0,
                defaultCharset := cellText (engineRow.map StoredCell.catalogCell) 1, mon, warnings } := by
    unfold buildHealth
    rw [hfirst, hfirst', hread]
    rfl
  have hreturns := finish_returns (cellText (engineRow.map StoredCell.catalogCell) 0)
    (cellText (engineRow.map StoredCell.catalogCell) 1)
    (monitoringOf monitoring.vars (monitoringRow.map StoredCell.catalogCell))
  rw [hbuild]
  by_cases hwide : WideEnough monitoring.vars
  · obtain ⟨mon, hmon, rfl⟩ := hmon.returns hwide
    rw [hmon]
    refine ⟨iff_of_true (fun h => nomatch (hreturns.of_error h).2) hwide,
      hreturns.ok_iff.trans (and_iff_right hwide).symm, ?_⟩
    intro info hinfo
    obtain ⟨-, hversion, hcharset, hmon⟩ := hreturns.of_ok hinfo
    exact ⟨hversion, hcharset, _, hmon, hexact⟩
  · obtain ⟨e, hmon, rfl⟩ := hmon.raises hwide
    rw [hmon]
    exact ⟨iff_of_false (fun h => h rfl) hwide, iff_of_false (fun h => nomatch h.choose_spec) fun h => hwide h.1,
      fun _ hinfo => nomatch hinfo⟩

/-- An `INTEGER` and a `BIGINT`, as they are described. -/
def integerVar : XSqlVar := { aliasname := utf8 "INTEGER", sqltype := 497, sqllen := 4 }

def bigintVar : XSqlVar := { aliasname := utf8 "BIGINT", sqltype := 581, sqllen := 8 }

def storedInteger (n : Int32) : StoredCell where
  col := describeColumn integerVar
  cell := some (.long n)
  indicator := 0
  frame := Memory.bytesOf 4 n.toUInt32.toNat
  null_iff := iff_of_false (by decide) nofun
  framed := by
    intro wire hwire
    obtain rfl := Option.some.inj hwire
    exact rfl

def storedBigint (n : Int64) : StoredCell where
  col := describeColumn bigintVar
  cell := some (.int64 n)
  indicator := 0
  frame := Memory.bytesOf 8 n.toUInt64.toNat
  null_iff := iff_of_false (by decide) nofun
  framed := by
    intro wire hwire
    obtain rfl := Option.some.inj hwire
    exact rfl

/-- The monitoring tables of a version with pages of 32 KiB. -/
def monitoringVars : List XSqlVar :=
  [codeVar, codeVar, codeVar, integerVar, codeVar, integerVar, bigintVar, bigintVar, bigintVar, bigintVar, bigintVar]

def monitoringRow : List StoredCell :=
  [storedCode 13, storedCode 0, storedCode 3, storedInteger 32768, storedCode 1, storedInteger 20000, storedBigint 7,
    storedBigint 8, storedBigint 8, storedBigint 9, storedBigint 1]

def healthServer : CatalogServer where
  openCursor sql :=
    if sql = engineSql then .ok { vars := [nameVar, nameVar], rows := [[storedName, storedName].map StoredCell.sent] }
    else .ok { vars := monitoringVars, rows := [monitoringRow.map StoredCell.sent] }
  readBlob _ := .error (utf8 "invalid BLOB ID")

theorem health_stored_pages :
    ∃ info mon, buildHealth healthServer = .ok info ∧ info.mon = some mon ∧ mon.pageSize.toInt64 = 32768 := by
  have hengine : CatalogAnswer.Holds
      { vars := [nameVar, nameVar], rows := [[storedName, storedName].map StoredCell.sent] } [.text, .text]
      (fun _ => True) [[storedName, storedName]] :=
    { described := .cons (.inr rfl) (.cons (.inr rfl) .nil)
      fit := List.forall_mem_singleton.mpr ⟨rfl, by decide⟩
      cells := fun _ _ => trivial
      sent := rfl }
  have hshort : ResultKind.Describes (.number 2) (describeColumn codeVar) := ⟨.inl rfl, by decide⟩
  have hlong : ResultKind.Describes (.number 4) (describeColumn integerVar) := ⟨.inr (.inl rfl), by decide⟩
  have hint64 : ResultKind.Describes (.number 8) (describeColumn bigintVar) := ⟨.inr (.inr rfl), by decide⟩
  have hmonitoring : CatalogAnswer.Holds { vars := monitoringVars, rows := [monitoringRow.map StoredCell.sent] }
      (numberKinds monitoringVars) (fun cells => ∀ cell ∈ cells, cell ≠ .null) [monitoringRow] :=
    { described := .cons hshort (.cons hshort (.cons hshort (.cons hlong (.cons hshort (.cons hlong (.cons hint64
        (.cons hint64 (.cons hint64 (.cons hint64 (.cons hint64 .nil))))))))))
      fit := List.forall_mem_singleton.mpr ⟨rfl, by decide⟩
      cells := List.forall_mem_singleton.mpr (by decide)
      sent := rfl }
  have hne : monitoringSql ≠ engineSql := by decide +kernel
  have hfirst : healthServer.openCursor engineSql =
      .ok { vars := [nameVar, nameVar], rows := [[storedName, storedName].map StoredCell.sent] } := by
    simp only [healthServer, if_true]
  have hsecond : healthServer.openCursor monitoringSql =
      .ok { vars := monitoringVars, rows := [monitoringRow.map StoredCell.sent] } := by
    simp only [healthServer, if_neg hne]
  obtain ⟨-, hresult, hstored⟩ := health_stored hfirst hengine hsecond rfl hmonitoring
  have hwide : WideEnough monitoringVars := by
    unfold WideEnough
    decide
  obtain ⟨info, hbuild⟩ := hresult.mpr ⟨hwide, by unfold GapFits; decide, by unfold GapFits; decide⟩
  obtain ⟨-, -, mon, hmon, hexact⟩ := hstored info hbuild
  have hfit : NumbersFit monitoringVars (monitoringRow.map StoredCell.catalogCell) :=
    ⟨by decide, by decide, by decide, by decide⟩
  exact ⟨info, mon, hbuild, hmon, (hexact.mpr hfit).pageSize⟩

end Stored

end FirebirdScan
