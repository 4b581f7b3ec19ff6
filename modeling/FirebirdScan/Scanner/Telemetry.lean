import FirebirdScan.Scanner.OpenCursor

/-!
# `Scanner.Telemetry` — the record of a partition's query (`FirebirdObservabilityState`)

In front of `OpenCursor` a worker records the query that it is about to send: its text, its parameters with the
texts among them redacted, and what was pushed. `firebird_last_query` and `firebird_query_log` show the record,
after `RecordQuery` has escaped what is not UTF-8. Timings, counters and the identity of the connection are left
out.
-/

namespace FirebirdScan

/-- `FirebirdQueryTelemetry`. -/
structure FirebirdQueryTelemetry where
  remoteSql : Bytes
  bindsRedacted : List Bytes
  tableName : Bytes
  projectedColumns : List Bytes
  pushedFilters : List Bytes
  residualFilters : List Bytes
  notPushedReasons : List String
  limitPushed : Option UInt64
  offsetPushed : Option UInt64
  partitions : Nat
  parallelScan : Bool
  errorMessage : Bytes := []

/-! ## The capture -/

/-- `RedactBindValue`. DuckDB prints what is neither `NULL` nor text. -/
def redactBindValue (toText : Value → Bytes) (v : Value) : Bytes :=
  if v.isNull then utf8 "<null>"
  else if v.type.id = .varchar ∨ v.type.id = .blob then utf8 "<text:redacted>"
  else toText v

namespace ScanBindData

variable (bind : ScanBindData)

/-- The names of the columns of the cursor; a column id out of range has none. -/
def projectedColumn (cid : Nat) : Option Bytes :=
  if cid = columnIdentifierRowId then some (utf8 "<rowid>") else bind.columnNames[cid]?

/-- `not_pushed_reasons`: of the residual filters, and of the complex filters that the hook left to DuckDB. -/
def notPushedReasons (query : BuildResult) : List String :=
  query.residualFilterReasons ++ bind.gatedComplexReasons

/-- `residual_filters`, one for each reason. -/
def residualFilters (query : BuildResult) : List Bytes :=
  (query.residualFilterIndices.map fun idx => utf8 "filter[" ++ utf8 (toString idx) ++ utf8 "]") ++
    bind.gatedComplexReasons.map fun _ => utf8 "complex_filter[none_gated]"

/-- The record of a partition's query. -/
def telemetry (toText : Value → Bytes) (api : DuckdbApi) (columnIds : List Nat)
    (filters : List (Nat × TableFilter)) (partitions : Nat) (spec : PartitionSpec) : FirebirdQueryTelemetry :=
  let query := bind.partitionQuery api columnIds filters spec
  { remoteSql := query.sql
    bindsRedacted := query.params.map (redactBindValue toText)
    tableName := bind.tableName
    projectedColumns := columnIds.filterMap bind.projectedColumn
    pushedFilters := query.pushedFilterSql ++ bind.extraPredicates.map ExtraPredicate.sql
    residualFilters := bind.residualFilters query
    notPushedReasons := bind.notPushedReasons query
    limitPushed := bind.pagination.limitToPush
    offsetPushed := bind.pagination.offsetToPush
    partitions := partitions
    parallelScan := partitions > 1 }

/-- **All partitions leave the same filters to DuckDB**: which they are does not depend on the key range. -/
theorem partitionQuery_residuals (api : DuckdbApi) (columnIds : List Nat) (filters : List (Nat × TableFilter))
    (spec spec' : PartitionSpec) :
    (bind.partitionQuery api columnIds filters spec).residualFilterIndices =
        (bind.partitionQuery api columnIds filters spec').residualFilterIndices ∧
      (bind.partitionQuery api columnIds filters spec).residualFilterReasons =
        (bind.partitionQuery api columnIds filters spec').residualFilterReasons := ⟨rfl, rfl⟩

end ScanBindData

/-! ## What is stored -/

/-- A byte `10tttttt` at some position. -/
def isContinuation (s : Bytes) (i : Nat) : Bool := (s[i]?).any fun c => c.toNat &&& 0xC0 = 0x80

/-- The six bits of the byte at some position. -/
def lowSix (s : Bytes) (i : Nat) : Nat := (s.getD i 0).toNat &&& 0x3F

/-- The `len` and `cp` that `MakeTelemetrySafeUtf8` finds at the start of what is left. -/
def sequenceAt (lead : UInt8) (s : Bytes) : Nat × Nat :=
  if lead.toNat < 0x80 then (1, lead.toNat)
  else if lead.toNat &&& 0xE0 = 0xC0 ∧ isContinuation s 0 then
    (2, ((lead.toNat &&& 0x1F) <<< 6) ||| lowSix s 0)
  else if lead.toNat &&& 0xF0 = 0xE0 ∧ isContinuation s 0 ∧ isContinuation s 1 then
    (3, ((lead.toNat &&& 0x0F) <<< 12) ||| (lowSix s 0 <<< 6) ||| lowSix s 1)
  else if lead.toNat &&& 0xF8 = 0xF0 ∧ isContinuation s 0 ∧ isContinuation s 1 ∧ isContinuation s 2 then
    (4, ((lead.toNat &&& 0x07) <<< 18) ||| (lowSix s 0 <<< 12) ||| (lowSix s 1 <<< 6) ||| lowSix s 2)
  else (0, 0)

/-- `kMinCp`. -/
def minCodepoint : List Nat := [0, 1, 0x80, 0x800, 0x10000]

/-- The test `valid`. A `NUL` is not: the least code point of a single byte is 1. -/
def validSequence (len cp : Nat) : Bool :=
  len ≠ 0 && minCodepoint.getD len 0 ≤ cp && cp ≤ 0x10FFFF && !(0xD800 ≤ cp && cp ≤ 0xDFFF)

/-- A digit of `hex`. -/
def hex (n : Nat) : UInt8 := (utf8 "0123456789ABCDEF").getD n 0

/-- The loop of `MakeTelemetrySafeUtf8`. Every round consumes a byte, so the length is fuel enough. -/
def makeTelemetrySafeLoop : Nat → Bytes → Bytes
  | _, [] => []
  | 0, _ :: _ => []
  | fuel + 1, lead :: s =>
      let found := sequenceAt lead s
      if validSequence found.1 found.2 then
        (lead :: s).take found.1 ++ makeTelemetrySafeLoop fuel ((lead :: s).drop found.1)
      else
        [0x5C, 0x78, hex (lead.toNat / 16), hex (lead.toNat % 16)] ++ makeTelemetrySafeLoop fuel s

/-- `MakeTelemetrySafeUtf8`. -/
def makeTelemetrySafeUtf8 (s : Bytes) : Bytes :=
  if s.all (· < 0x80) then s else makeTelemetrySafeLoop s.length s

/-- What `RecordQuery` keeps of a record. -/
def FirebirdQueryTelemetry.recorded (rec : FirebirdQueryTelemetry) : FirebirdQueryTelemetry :=
  { rec with
    remoteSql := makeTelemetrySafeUtf8 rec.remoteSql
    pushedFilters := rec.pushedFilters.map makeTelemetrySafeUtf8 }

/-- `FirebirdObservabilityState`: the last query, and the log with the newest entry at its end. -/
structure FirebirdObservabilityState where
  last : Option FirebirdQueryTelemetry := none
  log : List FirebirdQueryTelemetry := []

namespace FirebirdObservabilityState

/-- `RecordQuery`. -/
def recordQuery (state : FirebirdObservabilityState) (rec : FirebirdQueryTelemetry) (logSize : Int64) :
    FirebirdObservabilityState :=
  if logSize ≤ 0 then { last := some rec.recorded, log := [] }
  else
    let log := state.log ++ [rec.recorded]
    { last := some rec.recorded, log := log.drop (log.length - logSize.toInt.toNat) }

/-- The last query is the one recorded, and so is the newest entry of a log that is kept. -/
theorem recordQuery_newest (state : FirebirdObservabilityState) (rec : FirebirdQueryTelemetry) (logSize : Int64) :
    (state.recordQuery rec logSize).last = some rec.recorded ∧
      ∀ newest ∈ (state.recordQuery rec logSize).log.getLast?, newest = rec.recorded := by
  unfold recordQuery
  split_ifs with hoff
  · exact ⟨rfl, nofun⟩
  · refine ⟨rfl, ?_⟩
    intro newest h
    rw [List.getLast?_drop] at h
    split_ifs at h
    · cases h
    · rw [List.getLast?_concat] at h
      exact (Option.mem_some_iff.mp h).symm

end FirebirdObservabilityState

end FirebirdScan
