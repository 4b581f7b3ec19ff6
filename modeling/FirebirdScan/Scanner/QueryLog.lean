import FirebirdScan.Lib.RingLog
import FirebirdScan.Scanner.ErrorText

/-!
# `Scanner.QueryLog` — the record of the last query, its metrics, and the query log

`FirebirdObservabilityState` with all the fields of a record. Each of its mutators changes the last query and copies
what it has changed to the newest entry of the log. That is an operation of a `RingLog` (`step_ring`): `RecordQuery`
pushes, and every other one amends. The state of `Telemetry` is this one without the metrics (`withoutMetrics_step`).
-/

namespace FirebirdScan

open RingLog

/-- `FirebirdQueryTelemetry` with its metrics. -/
structure QueryTelemetry extends FirebirdQueryTelemetry where
  rowsRead : Int := 0
  bytesReadEstimate : Int := 0
  firebirdTimeUs : Int := 0
  totalTimeUs : Int := 0
  connectionId : Int := -1
  connectionReused : Bool := false
  capturedAt : Int := 0
  valid : Bool := false

/-- `FirebirdQueryTelemetry` as it is constructed. -/
def QueryTelemetry.default : QueryTelemetry where
  remoteSql := []
  bindsRedacted := []
  tableName := []
  projectedColumns := []
  pushedFilters := []
  residualFilters := []
  notPushedReasons := []
  limitPushed := none
  offsetPushed := none
  partitions := 1
  parallelScan := false

/-- What `RecordQuery` keeps of a record. -/
def QueryTelemetry.kept (rec : QueryTelemetry) : QueryTelemetry :=
  { rec with
    valid := true
    remoteSql := makeTelemetrySafeUtf8 rec.remoteSql
    pushedFilters := rec.pushedFilters.map makeTelemetrySafeUtf8 }

/-! ## The state -/

/-- `FirebirdObservabilityState`: `last_`, `log_` with the newest entry at its end, and `start_` on the steady clock,
    in nanoseconds. -/
structure ObservabilityState where
  last : QueryTelemetry := .default
  log : List QueryTelemetry := []
  start : Int := 0

namespace ObservabilityState

/-- `RecordQuery`, at the time `now`. -/
def recordQuery (state : ObservabilityState) (rec : QueryTelemetry) (logSize : Int64) (now : Int) :
    ObservabilityState :=
  if logSize ≤ 0 then { last := rec.kept, log := [], start := now }
  else
    let log := state.log ++ [rec.kept]
    -- the oldest entries go until `logSize` are left
    { last := rec.kept, log := log.drop (log.length - logSize.toInt.toNat), start := now }

/-- `SnapshotLog`. -/
def snapshotLog (state : ObservabilityState) : List QueryTelemetry := state.log.reverse

/-- `AddRows`. -/
def addRows (state : ObservabilityState) (n : Int) : ObservabilityState :=
  let last := { state.last with rowsRead := state.last.rowsRead + n }
  { state with last, log := state.log.modifyLast fun entry => { entry with rowsRead := last.rowsRead } }

/-- `AddBytes`. -/
def addBytes (state : ObservabilityState) (bytes : Int) : ObservabilityState :=
  let last := { state.last with bytesReadEstimate := state.last.bytesReadEstimate + bytes }
  { state with last, log := state.log.modifyLast fun entry => { entry with bytesReadEstimate := last.bytesReadEstimate } }

/-- `AddFirebirdTimeUs`. -/
def addFirebirdTimeUs (state : ObservabilityState) (us : Int) : ObservabilityState :=
  let last := { state.last with firebirdTimeUs := state.last.firebirdTimeUs + us }
  { state with last, log := state.log.modifyLast fun entry => { entry with firebirdTimeUs := last.firebirdTimeUs } }

/-- `UpdateTotalTimeUs`, at the time `now`. -/
def updateTotalTimeUs (state : ObservabilityState) (now : Int) : ObservabilityState :=
  let last := { state.last with totalTimeUs := (now - state.start).tdiv 1000 }
  { state with last, log := state.log.modifyLast fun entry => { entry with totalTimeUs := last.totalTimeUs } }

/-- `SetError`. -/
def setError (state : ObservabilityState) (msg : Bytes) : ObservabilityState :=
  let sanitized := sanitizeErrorMessage msg
  let last := { state.last with errorMessage := sanitized }
  { state with last, log := state.log.modifyLast fun entry => { entry with errorMessage := sanitized } }

end ObservabilityState

/-- A call of a mutator. -/
inductive Update where
  | recordQuery (rec : QueryTelemetry) (logSize : Int64) (now : Int)
  | addRows (n : Int)
  | addBytes (bytes : Int)
  | addFirebirdTimeUs (us : Int)
  | updateTotalTimeUs (now : Int)
  | setError (msg : Bytes)

namespace ObservabilityState

def step (state : ObservabilityState) : Update → ObservabilityState
  | .recordQuery rec logSize now => state.recordQuery rec logSize now
  | .addRows n => state.addRows n
  | .addBytes bytes => state.addBytes bytes
  | .addFirebirdTimeUs us => state.addFirebirdTimeUs us
  | .updateTotalTimeUs now => state.updateTotalTimeUs now
  | .setError msg => state.setError msg

/-- The state after a sequence of calls. -/
def after (updates : List Update) : ObservabilityState := Run.run step {} updates

/-- The last query and the log. -/
def ring (state : ObservabilityState) : Log QueryTelemetry := ⟨state.last, state.log⟩

end ObservabilityState

/-! ## Without the metrics -/

/-- The state as `Telemetry` has it. -/
def ObservabilityState.withoutMetrics (state : ObservabilityState) : FirebirdObservabilityState where
  last := if state.last.valid then some state.last.toFirebirdQueryTelemetry else none
  log := state.log.map QueryTelemetry.toFirebirdQueryTelemetry

theorem map_modifyLast {α β : Type} {f : α → α} {g : β → β} {φ : α → β} (h : ∀ a, φ (f a) = g (φ a)) (l : List α) :
    (l.modifyLast f).map φ = (l.map φ).modifyLast g := by
  rcases modifyLast_eq f l with rfl | ⟨init, a, rfl, hf⟩
  · rfl
  · rw [hf, List.map_append, List.map_append, List.map_singleton, List.map_singleton, List.modifyLast_concat, h]

theorem modifyLast_id {α : Type} (l : List α) : l.modifyLast id = l := by
  rcases modifyLast_eq id l with rfl | ⟨init, a, rfl, h⟩
  · rfl
  · exact h

/-- A call on the state without the metrics. -/
def FirebirdObservabilityState.step (state : FirebirdObservabilityState) : Update → FirebirdObservabilityState
  | .recordQuery rec logSize _ => state.recordQuery rec.toFirebirdQueryTelemetry logSize
  | .setError msg => state.setError msg
  | _ => state

/-- **The metrics can be left out**: a call does the same to the rest of the state. -/
theorem ObservabilityState.withoutMetrics_step (state : ObservabilityState) (update : Update) :
    (state.step update).withoutMetrics = state.withoutMetrics.step update := by
  have hmetric {f : QueryTelemetry → QueryTelemetry}
      (hf : ∀ entry, (f entry).toFirebirdQueryTelemetry = entry.toFirebirdQueryTelemetry) :
      (state.log.modifyLast f).map QueryTelemetry.toFirebirdQueryTelemetry =
        state.log.map QueryTelemetry.toFirebirdQueryTelemetry :=
    (map_modifyLast (g := id) hf state.log).trans (modifyLast_id _)
  cases update with
  | recordQuery rec logSize now =>
      show (state.recordQuery rec logSize now).withoutMetrics =
        state.withoutMetrics.recordQuery rec.toFirebirdQueryTelemetry logSize
      unfold recordQuery FirebirdObservabilityState.recordQuery
      split_ifs with hoff
      · rfl
      · have hlen : (state.withoutMetrics.log ++ [rec.kept.toFirebirdQueryTelemetry]).length =
            (state.log ++ [rec.kept]).length := by
          rw [List.length_append, List.length_append]
          exact congrArg (· + 1) (List.length_map _)
        refine congrArg (FirebirdObservabilityState.mk _) ?_
        show (List.drop _ (state.log ++ [rec.kept])).map _ =
          List.drop ((state.withoutMetrics.log ++ [rec.kept.toFirebirdQueryTelemetry]).length - _) _
        rw [hlen, List.map_drop, List.map_append]
        rfl
  | setError msg =>
      have hlog := map_modifyLast
        (f := fun entry : QueryTelemetry => { entry with errorMessage := sanitizeErrorMessage msg })
        (g := fun record => { record with errorMessage := sanitizeErrorMessage msg })
        (φ := QueryTelemetry.toFirebirdQueryTelemetry) (fun _ => rfl) state.log
      show FirebirdObservabilityState.mk _ (List.map _ (state.log.modifyLast _)) =
        FirebirdObservabilityState.mk (Option.map _ (if state.last.valid then _ else _)) _
      rw [hlog]
      show FirebirdObservabilityState.mk (if state.last.valid then _ else _) _ = _
      split_ifs <;> rfl
  | addRows n => exact congrArg (FirebirdObservabilityState.mk _) (hmetric fun _ => rfl)
  | addBytes bytes => exact congrArg (FirebirdObservabilityState.mk _) (hmetric fun _ => rfl)
  | addFirebirdTimeUs us => exact congrArg (FirebirdObservabilityState.mk _) (hmetric fun _ => rfl)
  | updateTotalTimeUs now => exact congrArg (FirebirdObservabilityState.mk _) (hmetric fun _ => rfl)

/-! ## The calls as operations of a ring -/

/-- What a call does to a ring, on a clock that was started at `start`. -/
def Update.op (start : Int) : Update → Op QueryTelemetry
  | .recordQuery rec logSize _ => .push rec.kept logSize.toInt.toNat
  | .addRows n => .amend fun entry => { entry with rowsRead := entry.rowsRead + n }
  | .addBytes bytes => .amend fun entry => { entry with bytesReadEstimate := entry.bytesReadEstimate + bytes }
  | .addFirebirdTimeUs us => .amend fun entry => { entry with firebirdTimeUs := entry.firebirdTimeUs + us }
  | .updateTotalTimeUs now => .amend fun entry => { entry with totalTimeUs := (now - start).tdiv 1000 }
  | .setError msg => .amend fun entry => { entry with errorMessage := sanitizeErrorMessage msg }

/-- The start of the clock after a call. -/
def Update.startAfter (start : Int) : Update → Int
  | .recordQuery _ _ now => now
  | _ => start

/-- A sequence of calls, from a start of the clock. -/
def opsFrom (start : Int) : List Update → List (Op QueryTelemetry)
  | [] => []
  | update :: updates => update.op start :: opsFrom (update.startAfter start) updates

/-- **A call is an operation of the ring**, if the newest entry of the log is the last query. -/
theorem ObservabilityState.step_ring {state : ObservabilityState}
    (h : ∀ newest ∈ state.log.getLast?, newest = state.last)
    (update : Update) : (state.step update).ring = state.ring.apply (update.op state.start) := by
  -- what is copied from the last query is what the newest entry would get by itself
  have hmirror {f g : QueryTelemetry → QueryTelemetry} (hfg : f state.last = g state.last) :
      state.log.modifyLast f = state.log.modifyLast g := by
    apply modifyLast_congr
    intro newest hnewest
    rw [h newest hnewest]
    exact hfg
  cases update with
  | recordQuery rec logSize now =>
      show (state.recordQuery rec logSize now).ring = _
      unfold recordQuery
      split_ifs with hoff
      · have hzero : logSize.toInt.toNat = 0 := by
          have hle := Int64.le_iff_toInt_le.mp hoff
          have h0 : (0 : Int64).toInt = 0 := rfl
          omega
        show Log.mk rec.kept [] = Log.mk rec.kept ((state.log ++ [rec.kept]).drop
          ((state.log ++ [rec.kept]).length - logSize.toInt.toNat))
        rw [hzero, Nat.sub_zero, List.drop_length]
      · rfl
  | addRows n => exact congrArg (Log.mk _) (hmirror rfl)
  | addBytes bytes => exact congrArg (Log.mk _) (hmirror rfl)
  | addFirebirdTimeUs us => exact congrArg (Log.mk _) (hmirror rfl)
  | updateTotalTimeUs now => exact congrArg (Log.mk _) (hmirror rfl)
  | setError msg => exact congrArg (Log.mk _) (hmirror rfl)

theorem ObservabilityState.step_start (state : ObservabilityState) (update : Update) :
    (state.step update).start = update.startAfter state.start := by
  cases update with
  | recordQuery rec logSize now =>
      show (state.recordQuery rec logSize now).start = now
      unfold recordQuery
      split_ifs <;> rfl
  | _ => rfl

/-- A sequence of calls is a run of the ring. -/
theorem ObservabilityState.run_ring {entries : List QueryTelemetry} {state : ObservabilityState}
    (h : Coherent entries state.ring) (updates : List Update) :
    (Run.run step state updates).ring = Run.run Log.apply state.ring (opsFrom state.start updates) := by
  induction updates generalizing entries state with
  | nil => rfl
  | cons update updates ih =>
      have hstep := step_ring h.newest update
      have hnext : Coherent (record entries (update.op state.start)) (state.step update).ring := hstep ▸ h.apply _
      rw [Run.run_cons, ih hnext, hstep, step_start]
      rfl

/-! ## The log and the history of the queries -/

/-- Every query that was recorded, in order, with what was added to it while it was the last one. -/
def history (updates : List Update) : List QueryTelemetry := Run.run record [] (opsFrom 0 updates)

/-- The size that the last `RecordQuery` left room for. -/
def lastLogSize (updates : List Update) : Nat := Run.run lastSize 0 (opsFrom 0 updates)

/-- How many entries the log is to have after a call: a `RecordQuery` adds one, up to its size. -/
def Update.entries (length : Nat) : Update → Nat
  | .recordQuery _ logSize _ => min (length + 1) logSize.toInt.toNat
  | _ => length

theorem opsFrom_append (start : Int) (updates more : List Update) :
    ∃ start', opsFrom start (updates ++ more) = opsFrom start updates ++ opsFrom start' more := by
  induction updates generalizing start with
  | nil => exact ⟨start, rfl⟩
  | cons update updates ih =>
      obtain ⟨start', h⟩ := ih (update.startAfter start)
      exact ⟨start', congrArg (update.op start :: ·) h⟩

theorem run_nextLength (updates : List Update) (start : Int) (length : Nat) :
    Run.run nextLength length (opsFrom start updates) = Run.run Update.entries length updates := by
  induction updates generalizing start length with
  | nil => rfl
  | cons update updates ih =>
      have hstep : nextLength length (update.op start) = update.entries length := by cases update <;> rfl
      rw [opsFrom, Run.run_cons, Run.run_cons, hstep, ih]

/-- Is it a `RecordQuery`? -/
def Update.records : Update → Bool
  | .recordQuery .. => true
  | _ => false

theorem length_record (entries : List QueryTelemetry) (start : Int) (update : Update) :
    (record entries (update.op start)).length = entries.length + if update.records then 1 else 0 := by
  cases update with
  | recordQuery rec logSize now => exact List.length_append
  | _ => exact length_modifyLast _ _

/-- The history has one entry for each `RecordQuery`. -/
theorem length_history (updates : List Update) : (history updates).length = updates.countP Update.records := by
  have hrun : ∀ (updates : List Update) (start : Int) (entries : List QueryTelemetry),
      (Run.run record entries (opsFrom start updates)).length = entries.length + updates.countP Update.records := by
    intro updates
    induction updates with
    | nil => exact fun _ _ => rfl
    | cons update updates ih =>
        intro start entries
        rw [opsFrom, Run.run_cons, ih, length_record, List.countP_cons]
        omega
  exact (hrun updates 0 []).trans (Nat.zero_add _)

/-- What was called are operations of the ring. -/
theorem after_ring (updates : List Update) : (ObservabilityState.after updates).ring =
    Run.run Log.apply (ObservabilityState.ring {}) (opsFrom 0 updates) :=
  ObservabilityState.run_ring (Coherent.empty _) updates

/-- The log and the history belong together, whatever was called. -/
theorem after_coherent (updates : List Update) :
    Coherent (history updates) (ObservabilityState.after updates).ring := by
  rw [after_ring]
  exact (Coherent.empty _).run (opsFrom 0 updates)

/-- What is to hold of the log after a sequence of calls. -/
structure LogRing (updates : List Update) (state : ObservabilityState) : Prop where
  bounded : state.log.length ≤ lastLogSize updates
  complete : state.log.length = Run.run Update.entries 0 updates
  newest : ∀ newest ∈ state.log.getLast?, newest = state.last
  current : ∀ newest ∈ (history updates).getLast?, newest = state.last
  queries : (history updates).length = updates.countP Update.records
  snapshot : state.snapshotLog = (history updates).reverse.take state.log.length

/-- **The ring of the query log.** After every sequence of calls the log is the end of the history, no longer than the
    last size, as long as the sizes so far left room for and with the last query at its end; what is not the last query of the history stays as it is whatever
    is called next; and only `RecordQuery` does anything to the older entries of the log. -/
theorem queryLog_ring (updates : List Update) :
    LogRing updates (ObservabilityState.after updates) ∧
      (∀ more, (history updates).dropLast <+: history (updates ++ more)) ∧
      ∀ (state : ObservabilityState) (update : Update), update.records = false →
        (state.step update).log.dropLast = state.log.dropLast := by
  have hcoherent := after_coherent updates
  refine ⟨⟨?_, ?_, hcoherent.newest, hcoherent.current, length_history updates, hcoherent.reverse⟩, ?_, ?_⟩
  · have hbounded := run_bounded (le_refl 0) (opsFrom 0 updates) (r := ObservabilityState.ring {})
    rw [← after_ring] at hbounded
    exact hbounded
  · have hlength := length_run (ObservabilityState.ring {}) (opsFrom 0 updates)
    rw [← after_ring, run_nextLength] at hlength
    exact hlength
  · intro more
    obtain ⟨start', hops⟩ := opsFrom_append 0 updates more
    have happend : history (updates ++ more) = Run.run record (history updates) (opsFrom start' more) := by
      rw [history, hops, Run.run, List.foldl_append]
      rfl
    rw [happend]
    exact frozen _ _
  · intro state update hrecords
    cases update with
    | recordQuery rec logSize now => cases hrecords
    | _ => exact dropLast_modifyLast _ _

end FirebirdScan
