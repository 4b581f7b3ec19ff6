import FirebirdScan.Client.Metadata
import FirebirdScan.Lib.Tasks
import FirebirdScan.Scanner.PkCache
import FirebirdScan.Scanner.Telemetry

/-!
# `Scanner.UnpushedGuard` — the guard against filters that stay in DuckDB (`firebird_unpushed_mode`)

Before a worker opens its cursor it passes a guard: the first one to find that the scan leaves filters to DuckDB
reports it, as `firebird_unpushed_mode` says. `unpushed_reported` makes it the only one. Its `exchange` is one
step, but the report that follows is another, and a worker that finds the flag set goes on to its cursor.

A worker takes one step at a time, and any number of workers take turns in any order. `events` is the order in
which things happened; it decides nothing.
-/

namespace FirebirdScan

/-! ## The report -/

/-- `RemedyForReason`. -/
def remedyForReason (reason : String) : String :=
  if reason = "NONE_CHARSET" then
    "columns declared CHARACTER SET NONE only push text filters under none_encoding='strict' or, for '=' / IN on " ++
      "CHAR / VARCHAR, with the none_pushdown=true opt-in - ranges, LIKE and NOT IN are always transcoded client-side"
  else if reason = "UNSUPPORTED_OP" then
    "the filter operator/shape/constant type has no Firebird SQL translation yet; simplify the predicate or " ++
      "accept DuckDB-side filtering"
  else if reason = "ROWID_OR_INVALID_COLUMN" then
    "the filter targets the virtual rowid or a column outside the resolved schema; filter on real columns instead"
  else if reason = "UNSUPPORTED_PROJECTION_MAPPING" then
    "the filter's projected column could not be mapped back to a source column; check the query's column list"
  else "unknown reason; inspect firebird_last_query()"

/-- A code goes into the order where it is first seen. -/
def addReason (order : List String) (reason : String) : List String :=
  if reason ∈ order then order else order ++ [reason]

/-- The codes of the reasons, in the order in which they are first seen. -/
def reasonOrder (reasons : List String) : List String := reasons.foldl addReason []

/-- The text of the report. -/
def unpushedMessage (mode : Bytes) (reasons : List String) : Bytes :=
  utf8 "firebird_unpushed_mode='" ++ mode ++ utf8 "': this scan kept " ++ utf8 (toString reasons.length) ++
    utf8 " filter(s) in DuckDB instead of pushing them down to Firebird." ++
    ((reasonOrder reasons).flatMap fun reason =>
      utf8 " " ++ utf8 reason ++ utf8 " (" ++ utf8 (toString (reasons.count reason)) ++ utf8 "): " ++
        utf8 (remedyForReason reason) ++ utf8 ".") ++
    utf8 (" Verify with firebird_explain_pushdown() / firebird_last_query(). Reset with SET " ++
      "firebird_unpushed_mode = 'silent'.")

/-- The mode: `none` stands for a setting that is missing or `NULL`. -/
def unpushedMode (setting : Option Bytes) : Bytes := (setting.map toLower).getD (utf8 "silent")

/-- How `HandleUnpushedFilters` ends. -/
inductive UnpushedVerdict where
  | silent
  | warns (message : Bytes)
  | throws (message : Bytes)
deriving DecidableEq

/-- `HandleUnpushedFilters`. -/
def handleUnpushedFilters (setting : Option Bytes) (reasons : List String) : UnpushedVerdict :=
  let mode := unpushedMode setting
  if mode = utf8 "silent" then .silent
  else if mode ≠ utf8 "warn" ∧ mode ≠ utf8 "error" then
    .throws (utf8 "firebird_unpushed_mode='" ++ mode ++
      utf8 "' is not valid; use 'silent', 'warn' or 'error'")
  else if mode = utf8 "error" then .throws (unpushedMessage mode reasons)
  else .warns (unpushedMessage mode reasons)

/-- A mode that makes the scan fail: `error`, and what is no mode. -/
def ModeThrows (setting : Option Bytes) : Prop :=
  unpushedMode setting ≠ utf8 "silent" ∧ unpushedMode setting ≠ utf8 "warn"

theorem handleUnpushedFilters_silent {setting : Option Bytes} (reasons : List String) :
    handleUnpushedFilters setting reasons = .silent ↔ unpushedMode setting = utf8 "silent" := by
  unfold handleUnpushedFilters
  constructor
  · intro h
    by_contra hmode
    simp only [if_neg hmode] at h
    split_ifs at h
  · intro h
    exact if_pos h

theorem handleUnpushedFilters_warns {setting : Option Bytes} (reasons : List String) :
    (∃ message, handleUnpushedFilters setting reasons = .warns message) ↔
      unpushedMode setting = utf8 "warn" := by
  have hother : utf8 "warn" ≠ utf8 "silent" ∧ utf8 "warn" ≠ utf8 "error" := by decide
  unfold handleUnpushedFilters
  constructor
  · rintro ⟨message, h⟩
    by_contra hmode
    simp only [hmode, ne_eq, not_false_eq_true, true_and] at h
    split_ifs at h
  · intro h
    simp only [h, hother.1, if_false, ne_eq, not_true_eq_false, false_and, hother.2]
    exact ⟨_, rfl⟩

theorem handleUnpushedFilters_throws {setting : Option Bytes} (reasons : List String) :
    (∃ message, handleUnpushedFilters setting reasons = .throws message) ↔ ModeThrows setting := by
  unfold ModeThrows
  rw [ne_eq, ne_eq, ← handleUnpushedFilters_silent reasons, ← handleUnpushedFilters_warns reasons]
  rcases handleUnpushedFilters setting reasons with _ | message | message <;> simp

theorem addReason_spec {order : List String} (h : order.Nodup) (head : String) :
    (addReason order head).Nodup ∧ ∀ reason, reason ∈ addReason order head ↔ reason ∈ order ∨ reason = head := by
  unfold addReason
  split_ifs with hhead
  · refine ⟨h, fun reason => ⟨Or.inl, ?_⟩⟩
    rintro (hold | rfl)
    · exact hold
    · exact hhead
  · refine ⟨?_, fun reason => ?_⟩
    · rw [← List.concat_eq_append]
      exact h.concat hhead
    · rw [List.mem_append, List.mem_singleton]

/-- **The report names every code**, each of them once. -/
theorem reasonOrder_spec (reasons : List String) :
    (reasonOrder reasons).Nodup ∧ ∀ reason, reason ∈ reasonOrder reasons ↔ reason ∈ reasons := by
  suffices h : ∀ order : List String, order.Nodup → (reasons.foldl addReason order).Nodup ∧
      ∀ reason, reason ∈ reasons.foldl addReason order ↔ reason ∈ order ∨ reason ∈ reasons by
    obtain ⟨hnodup, hmem⟩ := h [] List.nodup_nil
    exact ⟨hnodup, fun reason => (hmem reason).trans (or_iff_right List.not_mem_nil)⟩
  induction reasons with
  | nil => exact fun order h => ⟨h, fun reason => (or_iff_left List.not_mem_nil).symm⟩
  | cons head reasons ih =>
      intro order horder
      obtain ⟨hadded, hmem⟩ := addReason_spec horder head
      obtain ⟨hnodup, hall⟩ := ih _ hadded
      refine ⟨hnodup, fun reason => (hall reason).trans ?_⟩
      rw [hmem, List.mem_cons, or_assoc]

/-! ## The workers -/

namespace UnpushedGuard

open Run Tasks

/-- A scan: what its workers share and do not change. -/
structure GuardedScan where
  bind : ScanBindData
  toText : Value → Bytes
  api : DuckdbApi
  columnIds : List Nat
  filters : List (Nat × TableFilter)
  partitions : List PartitionSpec
  setting : Option Bytes

/-- What happens in a scan. -/
inductive Event where
  | recorded (record : FirebirdQueryTelemetry)
  | raised (message : Bytes)
  | warned (message : Bytes)
  | openCursor (spec : PartitionSpec)
  | fetched (spec : PartitionSpec)

/-- `FirebirdGlobalState`: the index of the queue, the flag, and what has happened so far. -/
structure Shared where
  nextPartition : Nat := 0
  unpushedReported : Bool := false
  events : List Event := []

namespace Shared

def emit (s : Shared) (event : Event) : Shared := { s with events := s.events ++ [event] }

@[simp] theorem emit_nextPartition (s : Shared) (event : Event) : (s.emit event).nextPartition = s.nextPartition := rfl

@[simp] theorem emit_unpushedReported (s : Shared) (event : Event) :
    (s.emit event).unpushedReported = s.unpushedReported := rfl

@[simp] theorem emit_events (s : Shared) (event : Event) : (s.emit event).events = s.events ++ [event] := rfl

/-- The index moves on. -/
def advance (s : Shared) : Shared := { s with nextPartition := s.nextPartition + 1 }

@[simp] theorem advance_nextPartition (s : Shared) : s.advance.nextPartition = s.nextPartition + 1 := rfl

@[simp] theorem advance_unpushedReported (s : Shared) : s.advance.unpushedReported = s.unpushedReported := rfl

@[simp] theorem advance_events (s : Shared) : s.advance.events = s.events := rfl

/-- The flag is set. -/
def setReported (s : Shared) : Shared := { s with unpushedReported := true }

@[simp] theorem setReported_nextPartition (s : Shared) : s.setReported.nextPartition = s.nextPartition := rfl

@[simp] theorem setReported_unpushedReported (s : Shared) : s.setReported.unpushedReported = true := rfl

@[simp] theorem setReported_events (s : Shared) : s.setReported.events = s.events := rfl

theorem setReported_eq {s : Shared} (h : s.unpushedReported = true) : s.setReported = s := by
  unfold setReported
  rw [← h]

end Shared

/-- Where a worker stands, and with which partition. -/
inductive Stage where
  | idle
  | taken (spec : PartitionSpec)
  | recorded (spec : PartitionSpec)
  | reporting (spec : PartitionSpec)
  | ready (spec : PartitionSpec)
  | fetching (spec : PartitionSpec)
  | finished
  | failed

/-- What a call of a worker meets: DuckDB's log throws under `warnings_as_errors`, the server may throw, and a
    cursor comes to its end. -/
inductive Input where
  | proceeds
  | exhausted
  | throws
deriving DecidableEq

namespace GuardedScan

variable (scan : GuardedScan)

/-- The record of a partition's query. -/
def telemetry (spec : PartitionSpec) : FirebirdQueryTelemetry :=
  scan.bind.telemetry scan.toText scan.api scan.columnIds scan.filters scan.partitions.length spec

/-- `NextPartition`. -/
def takePartition (s : Shared) : Shared × Stage :=
  match scan.partitions[s.nextPartition]? with
  | none => (s, .finished)
  | some spec => (s.advance, .taken spec)

/-- `unpushed_reported.exchange(true)`, if there is something to report. -/
def exchange (s : Shared) (spec : PartitionSpec) : Shared × Stage :=
  if (scan.telemetry spec).notPushedReasons = [] then (s, .ready spec)
  else (s.setReported, if s.unpushedReported then .ready spec else .reporting spec)

/-- The call of `HandleUnpushedFilters`. -/
def report (s : Shared) (spec : PartitionSpec) (input : Input) : Shared × Stage :=
  match handleUnpushedFilters scan.setting (scan.telemetry spec).notPushedReasons with
  | .silent => (s, .ready spec)
  | .warns message => (s.emit (.warned message), if input = .throws then .failed else .ready spec)
  | .throws message => (s.emit (.raised message), .failed)

/-- A step of a worker in `OpenNextPartitionCursor`, or a `Fetch`. -/
def act (s : Shared) : Stage → Input → Shared × Stage
  | .idle, _ => scan.takePartition s
  -- `RecordQuery`
  | .taken spec, _ => (s.emit (.recorded (scan.telemetry spec)), .recorded spec)
  | .recorded spec, _ => scan.exchange s spec
  | .reporting spec, input => scan.report s spec input
  -- `OpenCursor`
  | .ready spec, input => (s.emit (.openCursor spec), if input = .throws then .failed else .fetching spec)
  -- `Fetch`
  | .fetching spec, .proceeds => (s.emit (.fetched spec), .fetching spec)
  | .fetching _, .exhausted => (s, .idle)
  | .fetching _, .throws => (s, .failed)
  | .finished, _ => (s, .finished)
  | .failed, _ => (s, .failed)

/-- Any number of workers. -/
def workers : Program Shared Stage Input Unit Empty where
  start _ := .idle
  act := scan.act
  outside s _ := s

/-- What a run reaches. -/
def reached (moves : List (Move Input Unit Empty)) : World Shared Stage :=
  run scan.workers.step { shared := {} } moves

end GuardedScan

/-! ## What is promised -/

def Event.isRaise : Event → Bool
  | .raised _ => true
  | _ => false

def Event.isWarning : Event → Bool
  | .warned _ => true
  | _ => false

/-- The cursor of a partition is opened, or fetches a row. -/
def Event.isCursor : Event → Bool
  | .openCursor _ | .fetched _ => true
  | _ => false

namespace Shared

def raises (s : Shared) : Nat := s.events.countP Event.isRaise

def warnings (s : Shared) : Nat := s.events.countP Event.isWarning

@[simp] theorem emit_raises (s : Shared) (event : Event) :
    (s.emit event).raises = s.raises + if event.isRaise then 1 else 0 := by
  unfold raises
  rw [emit_events, List.countP_append, List.countP_singleton]

@[simp] theorem emit_warnings (s : Shared) (event : Event) :
    (s.emit event).warnings = s.warnings + if event.isWarning then 1 else 0 := by
  unfold warnings
  rw [emit_events, List.countP_append, List.countP_singleton]

@[simp] theorem advance_raises (s : Shared) : s.advance.raises = s.raises := rfl

@[simp] theorem advance_warnings (s : Shared) : s.advance.warnings = s.warnings := rfl

@[simp] theorem setReported_raises (s : Shared) : s.setReported.raises = s.raises := rfl

@[simp] theorem setReported_warnings (s : Shared) : s.setReported.warnings = s.warnings := rfl

end Shared

/-- A worker has taken a partition and has not passed the guard. -/
def Stage.inGuard : Stage → Bool
  | .taken _ | .recorded _ | .reporting _ => true
  | _ => false

/-- A worker has made the exchange and has not reported. -/
def Stage.isReporting : Stage → Bool
  | .reporting _ => true
  | _ => false

/-- The guard has done its work: a worker has begun, and none stands before its end. -/
def Settled (stages : List Stage) : Prop :=
  (∃ stage ∈ stages, stage ≠ .idle) ∧ ∀ stage ∈ stages, stage.inGuard = false

/-- Nothing touches a cursor before the report. -/
def FailsFast (events : List Event) : Prop :=
  ∀ before event after, events = before ++ event :: after → event.isCursor = true →
    ∃ earlier ∈ before, earlier.isRaise = true

namespace GuardedScan

variable (scan : GuardedScan)

/-- One report, of the same filters whoever makes it. -/
structure ReportsOnce (w : World Shared Stage) : Prop where
  /-- What the partitions leave to DuckDB is the same, -/
  same_residuals : ∀ record record', .recorded record ∈ w.shared.events → .recorded record' ∈ w.shared.events →
    record.residualFilters = record'.residualFilters ∧ record.notPushedReasons = record'.notPushedReasons
  /-- and it is what the report is about. -/
  raised_of : ∀ record message, .recorded record ∈ w.shared.events → .raised message ∈ w.shared.events →
    handleUnpushedFilters scan.setting record.notPushedReasons = .throws message
  warned_of : ∀ record message, .recorded record ∈ w.shared.events → .warned message ∈ w.shared.events →
    handleUnpushedFilters scan.setting record.notPushedReasons = .warns message
  raise_once : ModeThrows scan.setting →
    w.shared.raises ≤ 1 ∧ (Settled w.tasks → scan.partitions ≠ [] → w.shared.raises = 1)
  warn_once : unpushedMode scan.setting = utf8 "warn" →
    w.shared.warnings ≤ 1 ∧ (Settled w.tasks → scan.partitions ≠ [] → w.shared.warnings = 1)

end GuardedScan

/-- A worker makes the exchange only while no worker has made it without having reported. -/
def Allowed (w : World Shared Stage) : Move Input Unit Empty → Prop
  | .act i _ => (∃ spec, w.tasks[i]? = some (.recorded spec)) → ∀ stage ∈ w.tasks, stage.isReporting = false
  | _ => True

/-! ## One step -/

section

variable {scan : GuardedScan}

/-- **The partitions leave the same filters to DuckDB.** -/
theorem telemetry_residuals (spec spec' : PartitionSpec) :
    (scan.telemetry spec).residualFilters = (scan.telemetry spec').residualFilters ∧
      (scan.telemetry spec).notPushedReasons = (scan.telemetry spec').notPushedReasons := by
  obtain ⟨hindices, hreasons⟩ :=
    scan.bind.partitionQuery_residuals scan.api scan.columnIds scan.filters spec spec'
  constructor
  · show scan.bind.residualFilters _ = scan.bind.residualFilters _
    unfold ScanBindData.residualFilters
    rw [hindices]
  · show scan.bind.notPushedReasons _ = scan.bind.notPushedReasons _
    unfold ScanBindData.notPushedReasons
    rw [hreasons]

variable (scan) in
/-- The filters that the scan leaves to DuckDB. -/
def GuardedScan.notPushedReasons : List String := (scan.telemetry {}).notPushedReasons

variable (scan) in
/-- The report of the scan. -/
def GuardedScan.verdict : UnpushedVerdict := handleUnpushedFilters scan.setting scan.notPushedReasons

theorem notPushedReasons_eq (spec : PartitionSpec) :
    (scan.telemetry spec).notPushedReasons = scan.notPushedReasons := (telemetry_residuals spec {}).2

variable (scan) in
/-- What a step of a worker can do, in a scan that leaves filters to DuckDB. -/
inductive Acts (s : Shared) : Stage → Shared → Stage → Prop where
  | finishes : scan.partitions.length ≤ s.nextPartition → Acts s .idle s .finished
  | takes {spec} : scan.partitions[s.nextPartition]? = some spec → Acts s .idle s.advance (.taken spec)
  | records (spec) : Acts s (.taken spec) (s.emit (.recorded (scan.telemetry spec))) (.recorded spec)
  | wins (spec) : s.unpushedReported = false → Acts s (.recorded spec) s.setReported (.reporting spec)
  | passes (spec) : s.unpushedReported = true → Acts s (.recorded spec) s (.ready spec)
  | keepsSilent (spec) : scan.verdict = .silent → Acts s (.reporting spec) s (.ready spec)
  | warns (spec) {message stage} : scan.verdict = .warns message → stage = .ready spec ∨ stage = .failed →
      Acts s (.reporting spec) (s.emit (.warned message)) stage
  | raises (spec) {message} : scan.verdict = .throws message →
      Acts s (.reporting spec) (s.emit (.raised message)) .failed
  | opens (spec) {stage} : stage = .fetching spec ∨ stage = .failed →
      Acts s (.ready spec) (s.emit (.openCursor spec)) stage
  | fetches (spec) : Acts s (.fetching spec) (s.emit (.fetched spec)) (.fetching spec)
  | leaves (spec) {stage} : stage = .idle ∨ stage = .failed → Acts s (.fetching spec) s stage
  | stays {stage} : stage = .finished ∨ stage = .failed → Acts s stage s stage

theorem takePartition_acts (s : Shared) :
    Acts scan s .idle (scan.takePartition s).1 (scan.takePartition s).2 := by
  unfold GuardedScan.takePartition
  rcases hspec : scan.partitions[s.nextPartition]? with _ | spec
  · exact .finishes (List.getElem?_eq_none_iff.mp hspec)
  · exact .takes hspec

theorem exchange_acts (hscan : scan.notPushedReasons ≠ []) (s : Shared) (spec : PartitionSpec) :
    Acts scan s (.recorded spec) (scan.exchange s spec).1 (scan.exchange s spec).2 := by
  unfold GuardedScan.exchange
  rw [notPushedReasons_eq, if_neg hscan]
  cases hflag : s.unpushedReported with
  | false => exact .wins spec hflag
  | true =>
      rw [Shared.setReported_eq hflag]
      exact .passes spec hflag

theorem report_acts (s : Shared) (spec : PartitionSpec) (input : Input) :
    Acts scan s (.reporting spec) (scan.report s spec input).1 (scan.report s spec input).2 := by
  unfold GuardedScan.report
  rw [notPushedReasons_eq]
  rcases hverdict : handleUnpushedFilters scan.setting scan.notPushedReasons with _ | message | message
  · exact .keepsSilent spec hverdict
  · refine .warns spec hverdict ?_
    by_cases hinput : input = .throws
    · exact .inr (if_pos hinput)
    · exact .inl (if_neg hinput)
  · exact .raises spec hverdict

theorem act_acts (hscan : scan.notPushedReasons ≠ []) (s : Shared) (stage : Stage) (input : Input) :
    Acts scan s stage (scan.act s stage input).1 (scan.act s stage input).2 := by
  cases stage with
  | idle => exact takePartition_acts s
  | taken spec => exact .records spec
  | recorded spec => exact exchange_acts hscan s spec
  | reporting spec => exact report_acts s spec input
  | ready spec =>
      refine .opens spec ?_
      by_cases hinput : input = .throws
      · exact .inr (if_pos hinput)
      · exact .inl (if_neg hinput)
  | fetching spec =>
      cases input with
      | proceeds => exact .fetches spec
      | exhausted => exact .leaves spec (.inl rfl)
      | throws => exact .leaves spec (.inr rfl)
  | finished => exact .stays (.inl rfl)
  | failed => exact .stays (.inr rfl)

end

/-! ## Every run -/

/-- The stages without their partition; an idle worker counts for none of them. -/
inductive Phase where
  | taken | recorded | reporting | ready | fetching | finished | failed
deriving DecidableEq

def Stage.phase : Stage → Option Phase
  | .idle => none
  | .taken _ => some .taken
  | .recorded _ => some .recorded
  | .reporting _ => some .reporting
  | .ready _ => some .ready
  | .fetching _ => some .fetching
  | .finished => some .finished
  | .failed => some .failed

/-- A worker counts for the phase it is in. -/
def Stage.census (stage : Stage) (phase : Phase) : Nat := if stage.phase = some phase then 1 else 0

theorem total_census (stages : List Stage) (phase : Phase) :
    total Stage.census stages phase = stages.countP fun stage => decide (stage.phase = some phase) := by
  induction stages with
  | nil => rfl
  | cons stage stages ih =>
      rw [total_cons, Pi.add_apply, ih, List.countP_cons, add_comm]
      simp only [Stage.census, decide_eq_true_eq]

section

variable (scan : GuardedScan)

/-- What an event tells of the scan. -/
def GuardedScan.Tells : Event → Prop
  | .recorded record => ∃ spec, record = scan.telemetry spec
  | .raised message => scan.verdict = .throws message
  | .warned message => scan.verdict = .warns message
  | .openCursor _ | .fetched _ => True

/-- The queue: `m` counts the workers in each phase. -/
structure Queue (s : Shared) (m : Phase → Nat) : Prop where
  begun : 0 < m .taken + m .recorded + m .reporting + m .ready + m .fetching + m .failed → 0 < s.nextPartition
  exhausted : 0 < m .finished → scan.partitions.length ≤ s.nextPartition
  /-- The first worker in the guard makes the exchange. -/
  first : 0 < s.nextPartition → s.unpushedReported = false → 0 < m .taken + m .recorded

/-- The flag: who has set it has reported, or will. -/
structure Flag (s : Shared) (m : Phase → Nat) : Prop where
  unreported : s.unpushedReported = false →
    m .reporting = 0 ∧ m .ready = 0 ∧ m .fetching = 0 ∧ s.raises = 0 ∧ s.warnings = 0
  raise : s.unpushedReported = true → ModeThrows scan.setting → m .reporting + s.raises = 1
  warn : s.unpushedReported = true → unpushedMode scan.setting = utf8 "warn" → m .reporting + s.warnings = 1

variable {scan}

/-- A worker has begun, and has not found the queue empty since. -/
def Stage.begun : Stage → Bool
  | .idle | .finished => false
  | _ => true

/-- A worker has taken a partition and has not made the exchange. -/
def Stage.beforeExchange : Stage → Bool
  | .taken _ | .recorded _ => true
  | _ => false

/-- A worker has made the exchange. -/
def Stage.behindExchange : Stage → Bool
  | .reporting _ | .ready _ | .fetching _ => true
  | _ => false

theorem census_begun (stage : Stage) : stage.census .taken + stage.census .recorded + stage.census .reporting +
    stage.census .ready + stage.census .fetching + stage.census .failed = stage.begun.toNat := by
  cases stage <;> rfl

theorem census_beforeExchange (stage : Stage) :
    stage.census .taken + stage.census .recorded = stage.beforeExchange.toNat := by
  cases stage <;> rfl

theorem census_behindExchange (stage : Stage) :
    stage.census .reporting + stage.census .ready + stage.census .fetching = stage.behindExchange.toNat := by
  cases stage <;> rfl

theorem census_reporting (stage : Stage) : stage.census .reporting = stage.isReporting.toNat := by
  cases stage <;> rfl

theorem census_finished {stage : Stage} (h : 0 < stage.census .finished) : stage = .finished := by
  cases stage with
  | finished => rfl
  | idle | taken | recorded | reporting | ready | fetching | failed => cases h

/-- What a step has to keep of the queue. -/
theorem Queue.of_step {s s' : Shared} {stage stage' : Stage} {frame : Phase → Nat}
    (h : Queue scan s (stage.census + frame)) (hnext : s.nextPartition ≤ s'.nextPartition)
    (hbegun : stage'.begun = true → stage.begun = true ∨ 0 < s'.nextPartition)
    (hexhausted : stage' = .finished → stage = .finished ∨ scan.partitions.length ≤ s'.nextPartition)
    (hfirst : s'.unpushedReported = false → s.unpushedReported = false ∧
      (stage'.beforeExchange = true ∨ stage.beforeExchange = false ∧ s'.nextPartition = s.nextPartition)) :
    Queue scan s' (stage'.census + frame) := by
  obtain ⟨hbegun_old, hexhausted_old, hfirst_old⟩ := h
  simp only [Pi.add_apply] at hbegun_old hexhausted_old hfirst_old
  have hcount := census_begun stage
  have hcount' := census_begun stage'
  refine ⟨?_, ?_, ?_⟩
  · simp only [Pi.add_apply]
    intro hpos
    by_cases hin : stage'.begun = true
    · rcases hbegun hin with hold | hnow
      · rw [hold] at hcount
        exact (hbegun_old (by rw [Bool.toNat_true] at hcount; omega)).trans_le hnext
      · exact hnow
    · rw [Bool.eq_false_iff.mpr hin, Bool.toNat_false] at hcount'
      exact (hbegun_old (by omega)).trans_le hnext
  · simp only [Pi.add_apply]
    intro hpos
    by_cases hframe : 0 < frame .finished
    · exact (hexhausted_old (Nat.add_pos_right _ hframe)).trans hnext
    · rcases hexhausted (census_finished (by omega)) with rfl | hnow
      · exact (hexhausted_old (Nat.add_pos_left Nat.one_pos _)).trans hnext
      · exact hnow
  · simp only [Pi.add_apply]
    intro hpos hflag
    have hbefore := census_beforeExchange stage
    have hbefore' := census_beforeExchange stage'
    -- the worker is still in front of the exchange, or it was not there and took no partition
    obtain ⟨hold, hin | ⟨hout, hsame⟩⟩ := hfirst hflag
    · rw [hin, Bool.toNat_true] at hbefore'
      omega
    · rw [hout, Bool.toNat_false] at hbefore
      have hstill := hfirst_old (hsame ▸ hpos) hold
      omega

theorem acts_queue {s s' : Shared} {stage stage' : Stage} (h : Acts scan s stage s' stage') (frame : Phase → Nat)
    (hinv : Queue scan s (stage.census + frame)) : Queue scan s' (stage'.census + frame) := by
  have hsame (hflag : s.unpushedReported = false) (hout : stage.beforeExchange = false) :
      s.unpushedReported = false ∧ (stage'.beforeExchange = true ∨
        stage.beforeExchange = false ∧ s.nextPartition = s.nextPartition) := ⟨hflag, .inr ⟨hout, rfl⟩⟩
  cases h with
  | finishes hend => exact hinv.of_step le_rfl nofun (fun _ => .inr hend) fun hflag => hsame hflag rfl
  | takes hspec =>
      exact hinv.of_step (Nat.le_succ _) (fun _ => .inr (Nat.succ_pos _)) nofun fun hflag => ⟨hflag, .inl rfl⟩
  | records spec => exact hinv.of_step le_rfl (fun _ => .inl rfl) nofun fun hflag => ⟨hflag, .inl rfl⟩
  | wins spec hunset => exact hinv.of_step le_rfl (fun _ => .inl rfl) nofun nofun
  | passes spec hset =>
      refine hinv.of_step le_rfl (fun _ => .inl rfl) nofun ?_
      intro hflag
      rw [hset] at hflag
      cases hflag
  | keepsSilent spec hverdict => exact hinv.of_step le_rfl (fun _ => .inl rfl) nofun fun hflag => hsame hflag rfl
  | raises spec hverdict => exact hinv.of_step le_rfl (fun _ => .inl rfl) nofun fun hflag => hsame hflag rfl
  | fetches spec => exact hinv.of_step le_rfl (fun _ => .inl rfl) nofun fun hflag => hsame hflag rfl
  | warns spec hverdict hstage =>
      rcases hstage with rfl | rfl <;>
        exact hinv.of_step le_rfl (fun _ => .inl rfl) nofun fun hflag => hsame hflag rfl
  | opens spec hstage =>
      rcases hstage with rfl | rfl <;>
        exact hinv.of_step le_rfl (fun _ => .inl rfl) nofun fun hflag => hsame hflag rfl
  | leaves spec hstage =>
      rcases hstage with rfl | rfl
      · exact hinv.of_step le_rfl nofun nofun fun hflag => hsame hflag rfl
      · exact hinv.of_step le_rfl (fun _ => .inl rfl) nofun fun hflag => hsame hflag rfl
  | stays hstage => exact hinv

theorem verdict_silent (h : scan.verdict = .silent) : unpushedMode scan.setting = utf8 "silent" :=
  (handleUnpushedFilters_silent _).mp h

theorem verdict_warns {message : Bytes} (h : scan.verdict = .warns message) :
    unpushedMode scan.setting = utf8 "warn" := (handleUnpushedFilters_warns _).mp ⟨message, h⟩

theorem verdict_throws {message : Bytes} (h : scan.verdict = .throws message) : ModeThrows scan.setting :=
  (handleUnpushedFilters_throws _).mp ⟨message, h⟩

/-- What a step has to keep of the flag, if it does not set it. -/
theorem Flag.of_step {s s' : Shared} {stage stage' : Stage} {frame : Phase → Nat}
    (h : Flag scan s (stage.census + frame)) (hset : s'.unpushedReported = s.unpushedReported)
    (hbehind : stage'.behindExchange = true → stage.behindExchange = true ∨ s.unpushedReported = true)
    (hquiet : stage.isReporting = false → s'.raises = s.raises ∧ s'.warnings = s.warnings)
    (hraise : ModeThrows scan.setting →
      stage'.isReporting.toNat + s'.raises = stage.isReporting.toNat + s.raises)
    (hwarn : unpushedMode scan.setting = utf8 "warn" →
      stage'.isReporting.toNat + s'.warnings = stage.isReporting.toNat + s.warnings) :
    Flag scan s' (stage'.census + frame) := by
  obtain ⟨hunreported, hraise_old, hwarn_old⟩ := h
  simp only [Pi.add_apply, census_reporting] at hunreported hraise_old hwarn_old
  rw [← hset] at hunreported hraise_old hwarn_old
  refine ⟨?_, ?_, ?_⟩
  · intro hflag
    obtain ⟨hreporting, hready, hfetching, hraises, hwarnings⟩ := hunreported hflag
    have hnone : stage.isReporting = false := by
      cases hin : stage.isReporting with
      | false => rfl
      | true =>
          rw [hin, Bool.toNat_true] at hreporting
          omega
    -- nobody is behind the exchange while the flag is down, and the step took nobody there
    have hcount := census_behindExchange stage
    have hcount' := census_behindExchange stage'
    have hout : stage'.behindExchange = false := by
      rw [← Bool.not_eq_true]
      intro hin
      rcases hbehind hin with hold | hreported
      · rw [census_reporting, hold, Bool.toNat_true] at hcount
        omega
      · rw [← hset, hflag] at hreported
        cases hreported
    rw [hout, Bool.toNat_false] at hcount'
    obtain ⟨hsame_raises, hsame_warnings⟩ := hquiet hnone
    simp only [Pi.add_apply]
    refine ⟨by omega, by omega, by omega, hsame_raises.trans hraises, hsame_warnings.trans hwarnings⟩
  · intro hflag hmode
    have honce := hraise_old hflag hmode
    have hsum := hraise hmode
    simp only [Pi.add_apply, census_reporting]
    omega
  · intro hflag hmode
    have honce := hwarn_old hflag hmode
    have hsum := hwarn hmode
    simp only [Pi.add_apply, census_reporting]
    omega

theorem acts_flag {s s' : Shared} {stage stage' : Stage} (h : Acts scan s stage s' stage') (frame : Phase → Nat)
    (hinv : Flag scan s (stage.census + frame)) : Flag scan s' (stage'.census + frame) := by
  -- an event that is no report
  have hemit (event : Event) (hraise : event.isRaise = false) (hwarning : event.isWarning = false) :
      (s.emit event).raises = s.raises ∧ (s.emit event).warnings = s.warnings := by
    rw [Shared.emit_raises, Shared.emit_warnings, hraise, hwarning]
    exact ⟨rfl, rfl⟩
  cases h with
  | finishes hend => exact hinv.of_step rfl nofun (fun _ => ⟨rfl, rfl⟩) (fun _ => rfl) fun _ => rfl
  | takes hspec => exact hinv.of_step rfl nofun (fun _ => ⟨rfl, rfl⟩) (fun _ => rfl) fun _ => rfl
  | records spec =>
      obtain ⟨hraises, hwarnings⟩ := hemit (.recorded (scan.telemetry spec)) rfl rfl
      exact hinv.of_step rfl nofun (fun _ => ⟨hraises, hwarnings⟩) (fun _ => congrArg (0 + ·) hraises)
        fun _ => congrArg (0 + ·) hwarnings
  | wins spec hunset =>
      obtain ⟨hreporting, -, -, hraises, hwarnings⟩ := hinv.unreported hunset
      have hframe : frame .reporting = 0 := (Nat.zero_add _).symm.trans hreporting
      refine ⟨nofun, fun _ _ => ?_, fun _ _ => ?_⟩
      · show 1 + frame .reporting + s.raises = 1
        rw [hframe, hraises]
      · show 1 + frame .reporting + s.warnings = 1
        rw [hframe, hwarnings]
  | passes spec hset =>
      exact hinv.of_step rfl (fun _ => .inr hset) (fun _ => ⟨rfl, rfl⟩) (fun _ => rfl) fun _ => rfl
  | keepsSilent spec hverdict =>
      -- without a report there is nothing to count
      have hmode := verdict_silent hverdict
      have hother : utf8 "silent" ≠ utf8 "warn" := by decide
      exact hinv.of_step rfl (fun _ => .inl rfl) nofun (fun hthrows => absurd hmode hthrows.1)
        fun hwarns => absurd (hmode.symm.trans hwarns) hother
  | warns spec hverdict hstage =>
      have hmode := verdict_warns hverdict
      have hreport (message : Bytes) : 0 + (s.emit (.warned message)).warnings = 1 + s.warnings := by
        rw [Shared.emit_warnings, Nat.zero_add, Nat.add_comm]
        rfl
      rcases hstage with rfl | rfl
      · exact hinv.of_step rfl (fun _ => .inl rfl) nofun (fun hthrows => absurd hmode hthrows.2) fun _ => hreport _
      · exact hinv.of_step rfl nofun nofun (fun hthrows => absurd hmode hthrows.2) fun _ => hreport _
  | raises spec hverdict =>
      have hmode := verdict_throws hverdict
      have hreport (message : Bytes) : 0 + (s.emit (.raised message)).raises = 1 + s.raises := by
        rw [Shared.emit_raises, Nat.zero_add, Nat.add_comm]
        rfl
      exact hinv.of_step rfl nofun nofun (fun _ => hreport _) fun hwarns => absurd hwarns hmode.2
  | opens spec hstage =>
      obtain ⟨hraises, hwarnings⟩ := hemit (.openCursor spec) rfl rfl
      rcases hstage with rfl | rfl
      · exact hinv.of_step rfl (fun _ => .inl rfl) (fun _ => ⟨hraises, hwarnings⟩)
          (fun _ => congrArg (0 + ·) hraises) fun _ => congrArg (0 + ·) hwarnings
      · exact hinv.of_step rfl nofun (fun _ => ⟨hraises, hwarnings⟩)
          (fun _ => congrArg (0 + ·) hraises) fun _ => congrArg (0 + ·) hwarnings
  | fetches spec =>
      obtain ⟨hraises, hwarnings⟩ := hemit (.fetched spec) rfl rfl
      exact hinv.of_step rfl (fun _ => .inl rfl) (fun _ => ⟨hraises, hwarnings⟩)
        (fun _ => congrArg (0 + ·) hraises) fun _ => congrArg (0 + ·) hwarnings
  | leaves spec hstage =>
      rcases hstage with rfl | rfl <;>
        exact hinv.of_step rfl nofun (fun _ => ⟨rfl, rfl⟩) (fun _ => rfl) fun _ => rfl
  | stays hstage => exact hinv

/-- A step adds an event that tells of the scan, or none. -/
theorem acts_tells {s s' : Shared} {stage stage' : Stage} (h : Acts scan s stage s' stage')
    (htells : ∀ event ∈ s.events, scan.Tells event) : ∀ event ∈ s'.events, scan.Tells event := by
  have hemit : ∀ {event}, scan.Tells event → ∀ event' ∈ (s.emit event).events, scan.Tells event' := by
    intro event hevent event' hmem
    rcases List.mem_append.mp hmem with hold | hnew
    · exact htells event' hold
    · rw [List.mem_singleton.mp hnew]
      exact hevent
  cases h with
  | finishes | takes | wins | passes | keepsSilent | leaves | stays => exact htells
  | records spec => exact hemit ⟨spec, rfl⟩
  | warns spec hverdict _ => exact hemit hverdict
  | raises spec hverdict => exact hemit hverdict
  | opens spec _ => exact hemit trivial
  | fetches spec => exact hemit trivial

/-- What holds in every state that a scan reaches. -/
structure Inv (scan : GuardedScan) (s : Shared) (m : Phase → Nat) : Prop where
  tells : ∀ event ∈ s.events, scan.Tells event
  queue : Queue scan s m
  flag : Flag scan s m

theorem inv_frames (hscan : scan.notPushedReasons ≠ []) : Frames Stage.census scan.workers (Inv scan) where
  start _ := rfl
  act s stage input frame h :=
    have hacts := act_acts hscan s stage input
    ⟨acts_tells hacts h.tells, acts_queue hacts frame h.queue, acts_flag hacts frame h.flag⟩
  outside _ event _ _ := event.elim

theorem inv_start : Inv scan {} (total Stage.census []) where
  tells := fun _ h => absurd h List.not_mem_nil
  queue := ⟨fun h => absurd h (Nat.lt_irrefl 0), fun h => absurd h (Nat.lt_irrefl 0),
    fun h => absurd h (Nat.lt_irrefl 0)⟩
  flag := ⟨fun _ => ⟨rfl, rfl, rfl, rfl, rfl⟩, nofun, nofun⟩

theorem reached_inv (hscan : scan.notPushedReasons ≠ []) (moves : List (Move Input Unit Empty)) :
    Inv scan (scan.reached moves).shared (total Stage.census (scan.reached moves).tasks) :=
  (inv_frames hscan).run inv_start moves

/-! ### One report -/

/-- Behind the guard no worker is left who would have to report. -/
theorem settled_census {stages : List Stage} (h : Settled stages) {phase : Phase}
    (hphase : phase = .taken ∨ phase = .recorded ∨ phase = .reporting) : total Stage.census stages phase = 0 := by
  rw [total_census, List.countP_eq_zero]
  intro stage hstage hin
  have hguard := h.2 stage hstage
  cases stage <;> rcases hphase with rfl | rfl | rfl <;> simp [Stage.phase, Stage.inGuard] at hin hguard

/-- Once a worker has begun, a partition has been taken, or there is none. -/
theorem settled_taken {s : Shared} {stages : List Stage} (h : Settled stages)
    (hqueue : Queue scan s (total Stage.census stages)) (hparts : scan.partitions ≠ []) : 0 < s.nextPartition := by
  obtain ⟨⟨stage, hstage, hidle⟩, -⟩ := h
  have hcount : ∀ phase, stage.phase = some phase → 0 < total Stage.census stages phase := by
    intro phase hphase
    rw [total_census, List.countP_pos_iff]
    exact ⟨stage, hstage, decide_eq_true hphase⟩
  have hlength := List.length_pos_iff.mpr hparts
  have hbegun := hqueue.begun
  have hexhausted := hqueue.exhausted
  rcases hphase : stage.phase with _ | phase
  · cases stage <;> simp [Stage.phase] at hphase hidle
  · have hpos := hcount phase hphase
    cases phase <;> omega

/-- Behind the guard the flag is set, and who set it has reported. -/
theorem settled_reported {s : Shared} {stages : List Stage} (h : Settled stages)
    (hinv : Inv scan s (total Stage.census stages)) (hparts : scan.partitions ≠ []) :
    s.unpushedReported = true ∧ total Stage.census stages .reporting = 0 := by
  refine ⟨?_, settled_census h (.inr (.inr rfl))⟩
  by_contra hflag
  have hfirst := hinv.queue.first (settled_taken h hinv.queue hparts) (eq_false_of_ne_true hflag)
  rw [settled_census h (.inl rfl), settled_census h (.inr (.inl rfl))] at hfirst
  exact absurd hfirst (Nat.lt_irrefl 0)

/-- What is reported by the worker that sets the flag is reported once. -/
theorem once_of_flag {s : Shared} {stages : List Stage} (hinv : Inv scan s (total Stage.census stages)) {n : Nat}
    (hunset : s.unpushedReported = false → n = 0)
    (hset : s.unpushedReported = true → total Stage.census stages .reporting + n = 1) :
    n ≤ 1 ∧ (Settled stages → scan.partitions ≠ [] → n = 1) := by
  constructor
  · cases hflag : s.unpushedReported with
    | false =>
        rw [hunset hflag]
        exact Nat.zero_le 1
    | true => exact le_of_add_le_right (hset hflag).le
  · intro hsettled hparts
    obtain ⟨hflag, hnone⟩ := settled_reported hsettled hinv hparts
    have honce := hset hflag
    rw [hnone, zero_add] at honce
    exact honce

/-- **One report**, in every run. -/
theorem reached_reportsOnce (hscan : scan.notPushedReasons ≠ []) (moves : List (Move Input Unit Empty)) :
    scan.ReportsOnce (scan.reached moves) := by
  have hinv := reached_inv hscan moves
  have hreasons : ∀ record, .recorded record ∈ (scan.reached moves).shared.events →
      record.notPushedReasons = scan.notPushedReasons := by
    intro record hrecord
    obtain ⟨spec, rfl⟩ := hinv.tells _ hrecord
    exact notPushedReasons_eq spec
  refine ⟨?_, ?_, ?_, ?_, ?_⟩
  · intro record record' h h'
    obtain ⟨spec, rfl⟩ := hinv.tells _ h
    obtain ⟨spec', rfl⟩ := hinv.tells _ h'
    exact telemetry_residuals spec spec'
  · intro record message hrecord hraised
    rw [hreasons record hrecord]
    exact hinv.tells _ hraised
  · intro record message hrecord hwarned
    rw [hreasons record hrecord]
    exact hinv.tells _ hwarned
  · intro hmode
    apply once_of_flag hinv
    · exact fun hflag => (hinv.flag.unreported hflag).2.2.2.1
    · exact fun hflag => hinv.flag.raise hflag hmode
  · intro hmode
    apply once_of_flag hinv
    · exact fun hflag => (hinv.flag.unreported hflag).2.2.2.2
    · exact fun hflag => hinv.flag.warn hflag hmode

/-! ### Before any row -/

/-- One more event. -/
theorem failsFast_concat {events : List Event} {event : Event} :
    FailsFast (events ++ [event]) ↔
      FailsFast events ∧ (event.isCursor = true → ∃ earlier ∈ events, earlier.isRaise = true) := by
  constructor
  · intro h
    refine ⟨fun before found after heq hcursor => ?_, fun hcursor => h events event [] rfl hcursor⟩
    refine h before found (after ++ [event]) ?_ hcursor
    rw [heq, List.append_assoc, List.cons_append]
  · rintro ⟨hevents, hevent⟩ before found after heq hcursor
    rcases List.eq_nil_or_concat after with rfl | ⟨after, last, rfl⟩
    · obtain ⟨rfl, hfound⟩ := List.append_inj' heq rfl
      rw [List.singleton_inj.mp hfound] at hevent
      exact hevent hcursor
    · rw [List.concat_eq_append, ← List.cons_append, ← List.append_assoc] at heq
      obtain ⟨hfound, -⟩ := List.append_inj' heq rfl
      exact hevents before found after hfound hcursor

theorem exists_raise_iff {s : Shared} : (∃ event ∈ s.events, event.isRaise = true) ↔ 0 < s.raises :=
  List.countP_pos_iff.symm

/-- A worker behind the guard has the report behind it. -/
structure Fast (s : Shared) (m : Phase → Nat) : Prop where
  passed : 0 < m .ready + m .fetching → 0 < s.raises
  failsFast : FailsFast s.events

theorem acts_fast {s s' : Shared} {stage stage' : Stage} (h : Acts scan s stage s' stage') (frame : Phase → Nat)
    (hmode : ModeThrows scan.setting) (hflag : Flag scan s (stage.census + frame))
    (hallowed : stage.phase = some .recorded → frame .reporting = 0) (hfast : Fast s (stage.census + frame)) :
    Fast s' (stage'.census + frame) := by
  obtain ⟨hpassed, hfails⟩ := hfast
  have hraise := fun hset => hflag.raise hset hmode
  cases h with
  | keepsSilent spec hverdict => exact absurd (verdict_silent hverdict) hmode.1
  | warns spec hverdict hstage => exact absurd (verdict_warns hverdict) hmode.2
  | passes spec hset =>
      -- the flag is set and nobody is about to report, so the report is there
      refine ⟨fun _ => ?_, hfails⟩
      have honce := hraise hset
      simp [Stage.census, Stage.phase, hallowed rfl] at honce
      omega
  | opens spec hstage =>
      have hthere : 0 < s.raises := hpassed (by simp [Stage.census, Stage.phase])
      refine ⟨fun _ => ?_, failsFast_concat.mpr ⟨hfails, fun _ => exists_raise_iff.mpr hthere⟩⟩
      rw [Shared.emit_raises]
      exact Nat.add_pos_left hthere _
  | fetches spec =>
      have hthere : 0 < s.raises := hpassed (by simp [Stage.census, Stage.phase])
      refine ⟨fun _ => ?_, failsFast_concat.mpr ⟨hfails, fun _ => exists_raise_iff.mpr hthere⟩⟩
      rw [Shared.emit_raises]
      exact Nat.add_pos_left hthere _
  | raises spec hverdict =>
      refine ⟨fun _ => ?_, failsFast_concat.mpr ⟨hfails, nofun⟩⟩
      rw [Shared.emit_raises]
      exact Nat.succ_pos _
  | records spec =>
      refine ⟨fun hbehind => ?_, failsFast_concat.mpr ⟨hfails, nofun⟩⟩
      rw [Shared.emit_raises]
      exact Nat.add_pos_left (hpassed hbehind) _
  | finishes | takes | wins =>
      exact ⟨fun hbehind => hpassed hbehind, hfails⟩
  | leaves spec hstage =>
      refine ⟨fun hbehind => hpassed ?_, hfails⟩
      simp [Stage.census, Stage.phase]
  | stays hstage => exact ⟨hpassed, hfails⟩

theorem fast_start : Fast {} (total Stage.census []) where
  passed h := absurd h (Nat.lt_irrefl 0)
  failsFast _ _ _ heq := absurd heq.symm (List.append_ne_nil_of_right_ne_nil _ (List.cons_ne_nil _ _))

/-- Nobody is about to report. -/
theorem total_reporting {stages : List Stage} (h : ∀ stage ∈ stages, stage.isReporting = false) :
    total Stage.census stages .reporting = 0 := by
  rw [total_census, List.countP_eq_zero]
  intro stage hstage hphase
  have hnot := h stage hstage
  cases stage <;> simp [Stage.phase, Stage.isReporting] at hphase hnot

/-- **Fail-fast**: if the exchanges keep clear of each other's reports. -/
theorem reached_failsFast (hscan : scan.notPushedReasons ≠ []) (hmode : ModeThrows scan.setting)
    {moves : List (Move Input Unit Empty)} (h : Meets scan.workers.step Allowed { shared := {} } moves) :
    FailsFast (scan.reached moves).shared.events := by
  suffices hinv : Inv scan (scan.reached moves).shared (total Stage.census (scan.reached moves).tasks) ∧
      Fast (scan.reached moves).shared (total Stage.census (scan.reached moves).tasks) from hinv.2.failsFast
  refine @run_invariant _ _ _ Allowed (fun w => Inv scan w.shared (total Stage.census w.tasks) ∧
    Fast w.shared (total Stage.census w.tasks)) ?_ moves { shared := {} } ⟨inv_start, fast_start⟩ h
  rintro w move ⟨hinv, hfast⟩ hallowed
  refine ⟨(inv_frames hscan).step w move hinv, ?_⟩
  rcases step_total (inv_frames hscan).start w move with ⟨hshared, htotal⟩ | ⟨event, -, -⟩ |
    ⟨i, stage, input, frame, rfl, hstage, hbefore, hshared, hafter⟩
  · rw [hshared, htotal]
    exact hfast
  · exact event.elim
  · rw [hshared, hafter]
    rw [hbefore] at hinv hfast
    refine acts_fast (act_acts hscan w.shared stage input) frame hmode hinv.flag ?_ hfast
    intro hphase
    have hnone : total Stage.census w.tasks .reporting = 0 := by
      apply total_reporting
      apply hallowed
      cases stage with
      | recorded spec => exact ⟨spec, hstage⟩
      | idle | taken | reporting | ready | fetching | finished | failed => cases hphase
    rw [hbefore] at hnone
    exact (Nat.add_eq_zero_iff.mp hnone).2

/-- **A cursor that is opened early**: a worker has set the flag and not reported, and another one goes on. -/
theorem not_failsFast_of_early (hscan : scan.notPushedReasons ≠ []) (hmode : ModeThrows scan.setting)
    {moves : List (Move Input Unit Empty)} {i : Nat} {spec : PartitionSpec}
    (hready : (scan.reached moves).tasks[i]? = some (.ready spec))
    (hreporting : ∃ stage ∈ (scan.reached moves).tasks, stage.isReporting = true) (input : Input) :
    ¬FailsFast (scan.reached (moves ++ [.act i input])).shared.events := by
  have hinv := reached_inv hscan moves
  have hcount : 0 < total Stage.census (scan.reached moves).tasks .reporting := by
    obtain ⟨stage, hstage, his⟩ := hreporting
    rw [total_census, List.countP_pos_iff]
    refine ⟨stage, hstage, ?_⟩
    cases stage <;> simp [Stage.phase, Stage.isReporting] at his ⊢
  have hflag : (scan.reached moves).shared.unpushedReported = true := by
    by_contra hunset
    have hnone := (hinv.flag.unreported (eq_false_of_ne_true hunset)).1
    omega
  have honce := hinv.flag.raise hflag hmode
  have hevents : (scan.reached (moves ++ [.act i input])).shared.events =
      (scan.reached moves).shared.events ++ [.openCursor spec] := by
    have hlast : scan.reached (moves ++ [.act i input]) =
        scan.workers.step (scan.reached moves) (.act i input) := List.foldl_append
    rw [hlast, Program.step_act _ hready]
    rfl
  rw [hevents, failsFast_concat]
  rintro ⟨-, hraise⟩
  have hthere := exists_raise_iff.mp (hraise rfl)
  omega

end

/-! ## The race -/

/-- **The guard.** In a scan that leaves filters to DuckDB, every run reports once, and about the same filters;
    and a mode that makes the scan fail does so before a cursor is opened, if the exchanges keep clear of each
    other's reports. -/
theorem unpushed_guard (scan : GuardedScan) (hscan : scan.notPushedReasons ≠ [])
    (moves : List (Move Input Unit Empty)) :
    scan.ReportsOnce (scan.reached moves) ∧
      (ModeThrows scan.setting → Meets scan.workers.step Allowed { shared := {} } moves →
        FailsFast (scan.reached moves).shared.events) :=
  ⟨reached_reportsOnce hscan moves, fun hmode h => reached_failsFast hscan hmode h⟩

/-- A table in two partitions, and a `NOT IN` on a column of `CHARACTER SET NONE`. -/
def gatedScan : GuardedScan where
  bind :=
    { columnNames := [utf8 "NAME"]
      columnDescs := [{ name := utf8 "NAME", sqltype := .varying, characterSetId := 0 }]
      gatedComplexReasons := ["NONE_CHARSET"]
      tableName := utf8 "BIG_TABLE"
      pk := PkCache.probePrimaryKey (some (utf8 "ID")) [1, 20] }
  toText _ := []
  api := .v1_5
  columnIds := [0]
  filters := []
  partitions := [{ range := some (1, 10) }, { range := some (11, 20) }]
  setting := some (utf8 "error")

/-- One worker after the other: the first one raises the report. -/
def inTurn : List (Move Input Unit Empty) :=
  [.start (), .start (), .act 0 .proceeds, .act 0 .proceeds, .act 0 .proceeds, .act 0 .proceeds,
    .act 1 .proceeds, .act 1 .proceeds, .act 1 .proceeds, .act 1 .proceeds]

/-- The second worker makes its exchange, opens its cursor and fetches a row before the first one raises. -/
def overtaken : List (Move Input Unit Empty) :=
  [.start (), .start (), .act 0 .proceeds, .act 1 .proceeds, .act 0 .proceeds, .act 1 .proceeds,
    .act 0 .proceeds, .act 1 .proceeds, .act 1 .proceeds, .act 1 .proceeds, .act 0 .proceeds]

theorem gatedScan_reasons : gatedScan.notPushedReasons = ["NONE_CHARSET"] := rfl

theorem gatedScan_kept : gatedScan.notPushedReasons ≠ [] := by
  rw [gatedScan_reasons]
  exact List.cons_ne_nil _ _

theorem gatedScan_throws : ModeThrows gatedScan.setting := by
  show utf8 "error" ≠ utf8 "silent" ∧ utf8 "error" ≠ utf8 "warn"
  decide

theorem inTurn_meets : Meets gatedScan.workers.step Allowed { shared := {} } inTurn := by
  refine ⟨trivial, trivial, ?_, ?_, ?_, ?_, ?_, ?_, ?_, ?_, trivial⟩
  -- each worker makes its exchange while the other one is not in the guard
  case refine_3 => exact fun _ => List.forall_mem_cons.mpr ⟨rfl, List.forall_mem_singleton.mpr rfl⟩
  case refine_7 => exact fun _ => List.forall_mem_cons.mpr ⟨rfl, List.forall_mem_singleton.mpr rfl⟩
  all_goals
    rintro ⟨spec, h⟩
    cases h

theorem unpushed_guard_inTurn :
    gatedScan.ReportsOnce (gatedScan.reached inTurn) ∧ FailsFast (gatedScan.reached inTurn).shared.events := by
  obtain ⟨honce, hfast⟩ := unpushed_guard gatedScan gatedScan_kept inTurn
  exact ⟨honce, hfast gatedScan_throws inTurn_meets⟩

/-- **A row is fetched before the report**: the second worker finds the flag set, and the first one has still to
    raise. -/
theorem guard_overtaken :
    gatedScan.notPushedReasons = ["NONE_CHARSET"] ∧ ModeThrows gatedScan.setting ∧
      (∃ before after, (gatedScan.reached overtaken).shared.events =
        before ++ .fetched { range := some (11, 20) } :: after ∧ ∀ event ∈ before, event.isRaise = false) ∧
      ¬FailsFast (gatedScan.reached overtaken).shared.events := by
  have hrun : ∃ first second message, (gatedScan.reached overtaken).shared.events =
      [.recorded first, .recorded second, .openCursor { range := some (11, 20) }] ++
        .fetched { range := some (11, 20) } :: [.raised message] := ⟨_, _, _, rfl⟩
  obtain ⟨first, second, message, hevents⟩ := hrun
  have hnone : ∀ event ∈ [Event.recorded first, .recorded second, .openCursor { range := some (11, 20) }],
      event.isRaise = false := by simp [Event.isRaise]
  refine ⟨gatedScan_reasons, gatedScan_throws, ⟨_, _, hevents, hnone⟩, ?_⟩
  intro h
  obtain ⟨earlier, hbefore, hraise⟩ := h _ _ _ hevents rfl
  rw [hnone earlier hbefore] at hraise
  cases hraise

end UnpushedGuard
end FirebirdScan
