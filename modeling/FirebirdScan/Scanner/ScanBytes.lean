import FirebirdScan.Lib.Tasks
import FirebirdScan.Scanner.QueryLog
import FirebirdScan.Scanner.Workers

/-!
# `Scanner.ScanBytes` — the payload bytes of a scan (`FirebirdScanFunction`)

A cursor counts the bytes that it reads. The worker that fetches through it takes the count when the cursor is
exhausted, when a slice is full, and at the end of every call; and there it passes what it has taken to the record of
the query and to the pool, and starts again from zero.

Here the workers of a scan are tasks over the partition queue, the calls on the record, and the pool. `Conserves` says
that what was passed and what is still held by some worker are together what the cursors have read. It is a frame
rule's invariant, and every step keeps it (`act_conserves`). Between two calls nothing is held (`Tidy`).
-/

namespace FirebirdScan
namespace ScanBytes

open Tasks Workers Run

variable {π : Type}

/-! ## The cursor -/

/-- A `FirebirdStatement` that is fetched from: `row_width_bytes_`, the rows to come, each with the sizes of its BLOBs,
    and `bytes_read_`. `fetches` and `blobBytes` record what was read, and decide nothing. -/
structure Cursor where
  rowWidth : Nat
  rows : List (List Nat)
  bytesRead : Nat := 0
  fetches : Nat := 0
  blobBytes : Nat := 0
deriving DecidableEq

namespace Cursor

/-- `Fetch`, when a row is there; `rows` are the others. -/
def fetch (c : Cursor) (rows : List (List Nat)) : Cursor :=
  { c with rows, bytesRead := c.bytesRead + c.rowWidth, fetches := c.fetches + 1 }

/-- `ReadBlob`, for BLOBs of a row. -/
def readBlobs (c : Cursor) (blobs : List Nat) : Cursor :=
  { c with bytesRead := c.bytesRead + blobs.sum, blobBytes := c.blobBytes + blobs.sum }

/-- `TakeBytesRead` leaves an empty counter. -/
def taken (c : Cursor) : Cursor := { c with bytesRead := 0 }

/-- What was read through a cursor: its row width for each successful fetch, and the BLOBs. -/
def payload (c : Cursor) : Nat := c.rowWidth * c.fetches + c.blobBytes

@[simp] theorem bytesRead_fetch (c : Cursor) (rows : List (List Nat)) :
    (c.fetch rows).bytesRead = c.bytesRead + c.rowWidth := rfl

@[simp] theorem payload_fetch (c : Cursor) (rows : List (List Nat)) :
    (c.fetch rows).payload = c.payload + c.rowWidth := by
  show c.rowWidth * (c.fetches + 1) + c.blobBytes = c.rowWidth * c.fetches + c.blobBytes + c.rowWidth
  rw [Nat.mul_succ]
  omega

@[simp] theorem bytesRead_readBlobs (c : Cursor) (blobs : List Nat) :
    (c.readBlobs blobs).bytesRead = c.bytesRead + blobs.sum := rfl

@[simp] theorem payload_readBlobs (c : Cursor) (blobs : List Nat) :
    (c.readBlobs blobs).payload = c.payload + blobs.sum := (Nat.add_assoc _ _ _).symm

@[simp] theorem bytesRead_taken (c : Cursor) : c.taken.bytesRead = 0 := rfl

@[simp] theorem payload_taken (c : Cursor) : c.taken.payload = c.payload := rfl

end Cursor

/-! ## The scan -/

/-- The slice that is taken locally: `slice_limit` and `slice_offset`. -/
structure LocalSlice where
  limit : Nat
  offset : Nat

/-- A scan: its partitions, what a cursor on each of them delivers and what is recorded when it is opened, the slice,
    the size of a chunk, and the estimate of its pool, if it has one. -/
structure Scan (π : Type) where
  partitions : List π
  movedFrom : π
  rowWidth : π → Nat
  rows : π → List (List Nat)
  record : π → FirebirdQueryTelemetry
  slice : Option LocalSlice
  target : Nat
  pool : Option Nat

/-- Where a worker stands. -/
inductive Position (π : Type) where
  /-- before a call, or behind it -/
  | returned
  /-- at the head of the loop -/
  | loop
  /-- with a partition, about to record the query -/
  | opening (spec : π)
  /-- about to look at the filters that were not pushed -/
  | recorded (spec : π)
  /-- about to open the cursor -/
  | checked (spec : π)
  /-- behind `OpenCursor` -/
  | opened
  | openedTimed
  /-- behind the loop -/
  | ending
  | addBytes
  | addPool
  | addTime
  | updateTotal
  /-- in the handler around the loop -/
  | raising (msg : Bytes)
  | failed

/-- `FirebirdLocalState`, and what a call has counted so far. `emitted` are the rows of all calls and `closed` the
    cursors that were dropped; these two decide nothing. -/
structure Worker (π : Type) where
  position : Position π := .returned
  row : Nat := 0
  fetchUs : Int := 0
  cursor : Option Cursor := none
  bytesFetched : Nat := 0
  rowsSkipped : Nat := 0
  rowsEmitted : Nat := 0
  emitted : Nat := 0
  closed : List Cursor := []

/-- What the workers share: the queue, the calls on the record of the query, and `bytes_read_estimate_` of the pool. -/
structure Shared (π : Type) where
  queue : GlobalState π
  calls : List Update := []
  pool : Option Nat

/-- What a worker meets in a step: an error, or one when it appends a row and has read so many of its BLOBs; the
    clock, the time that the server took, a setting, and the connection. -/
structure Answer where
  raises : Option Bytes := none
  appendRaises : Option (Nat × Bytes) := none
  now : Int := 0
  us : Int := 0
  logSize : Int64 := 0
  connectionId : Int := -1
  connectionReused : Bool := false

/-! ## The steps of a worker -/

/-- A call on the record of the query. -/
def Shared.call (s : Shared π) (update : Update) : Shared π := { s with calls := s.calls ++ [update] }

/-- A call that is made only if there is something to report. -/
def Shared.callIf (s : Shared π) (reports : Bool) (update : Update) : Shared π :=
  if reports then s.call update else s

namespace Worker

variable (t : Worker π)

/-- The count of the cursor is taken, and the cursor is dropped. -/
def close (c : Cursor) : Worker π :=
  { t with cursor := none, bytesFetched := t.bytesFetched + c.bytesRead, closed := t.closed ++ [c.taken] }

/-- The count is taken, and the cursor is kept. -/
def drain : Worker π :=
  match t.cursor with
  | none => t
  | some c => { t with cursor := some c.taken, bytesFetched := t.bytesFetched + c.bytesRead }

/-- A row that was fetched is skipped, is one too many, or is appended. -/
def receive (slice : Option LocalSlice) (c : Cursor) (blobs : List Nat) (a : Answer) : Worker π :=
  if slice.any fun s => t.rowsSkipped < s.offset then { t with cursor := some c, rowsSkipped := t.rowsSkipped + 1 }
  else if slice.any fun s => s.limit ≤ t.rowsEmitted then { t.close c with position := .ending }
  else
    match a.appendRaises with
    | some (n, msg) => { t with cursor := some (c.readBlobs (blobs.take n)), position := .raising msg }
    | none =>
        { t with
          cursor := some (c.readBlobs blobs)
          row := t.row + 1
          rowsEmitted := if slice.isSome then t.rowsEmitted + 1 else t.rowsEmitted
          emitted := t.emitted + 1 }

/-- One round of the loop with a cursor. -/
def fetch (slice : Option LocalSlice) (c : Cursor) (a : Answer) : Worker π :=
  match a.raises with
  | some msg => { t with position := .raising msg }
  | none =>
      let timed := { t with fetchUs := t.fetchUs + a.us }
      match c.rows with
      | [] => timed.close c
      | blobs :: rows => timed.receive slice (c.fetch rows) blobs a

end Worker

/-- `NextPartition`. -/
def takePartition (movedFrom : π) (s : Shared π) (t : Worker π) : Shared π × Worker π :=
  match nextPartition movedFrom s.queue with
  | none => (s, { t with position := .ending })
  | some (spec, queue) => ({ s with queue }, { t with position := .opening spec })

/-- One round of the loop, or its end. -/
def loopStep (S : Scan π) (s : Shared π) (t : Worker π) (a : Answer) : Shared π × Worker π :=
  if t.row < S.target then
    match t.cursor with
    | none => takePartition S.movedFrom s t
    | some c => (s, t.fetch S.slice c a)
  else (s, { t with position := .ending })

/-- The record of the query, as it is when a partition is opened. -/
def captured (S : Scan π) (spec : π) (a : Answer) : QueryTelemetry :=
  { toFirebirdQueryTelemetry := S.record spec
    connectionId := a.connectionId
    connectionReused := a.connectionReused
    capturedAt := a.now }

/-- `AddBytesReadEstimate`. -/
def addBytesReadEstimate (bytes : Nat) (estimate : Nat) : Nat := if bytes > 0 then estimate + bytes else estimate

/-- `AddBytes`, when there are any. -/
def passBytes (s : Shared π) (t : Worker π) : Shared π × Worker π :=
  if t.bytesFetched > 0 then (s.call (.addBytes t.bytesFetched), { t with position := .addPool })
  else (s, { t with position := .addTime })

/-- The bytes go to the pool, if there is one, and nothing is left of them. -/
def passPool (s : Shared π) (t : Worker π) : Shared π × Worker π :=
  ({ s with pool := s.pool.map (addBytesReadEstimate t.bytesFetched) },
    { t with bytesFetched := 0, position := .addTime })

/-- A step of a worker. What it shares is touched under one lock at a time. -/
def act (S : Scan π) (s : Shared π) (t : Worker π) (a : Answer) : Shared π × Worker π :=
  match t.position with
  | .returned => (s, { t with position := .loop, row := 0, fetchUs := 0 })
  | .loop => loopStep S s t a
  | .opening spec =>
      match a.raises with
      | some msg => (s, { t with position := .raising msg })
      | none => (s.call (.recordQuery (captured S spec a) a.logSize a.now), { t with position := .recorded spec })
  | .recorded spec =>
      match a.raises with
      | some msg => (s, { t with position := .raising msg })
      | none => (s, { t with position := .checked spec })
  | .checked spec =>
      match a.raises with
      | some msg => (s.call (.setError (utf8 "OpenCursor: " ++ msg)), { t with position := .raising msg })
      | none =>
          (s, { t with cursor := some { rowWidth := S.rowWidth spec, rows := S.rows spec }, position := .opened })
  | .opened => (s.call (.addFirebirdTimeUs a.us), { t with position := .openedTimed })
  | .openedTimed => (s.call (.updateTotalTimeUs a.now), { t with position := .loop })
  | .ending => (s.callIf (t.row > 0) (.addRows t.row), { t.drain with position := .addBytes })
  | .addBytes => passBytes s t
  | .addPool => passPool s t
  | .addTime => (s.callIf (t.fetchUs > 0) (.addFirebirdTimeUs t.fetchUs), { t with position := .updateTotal })
  | .updateTotal => (s.call (.updateTotalTimeUs a.now), { t with position := .returned })
  | .raising msg => (s.call (.setError (utf8 "Fetch: " ++ msg)), { t with position := .failed })
  | .failed => (s, t)

/-- The workers of a scan. Nothing else touches what they share. -/
def workers (S : Scan π) : Program (Shared π) (Worker π) Answer Unit Empty where
  start _ := {}
  act := act S
  outside s _ := s

/-- A scan before its first call. -/
def begun (S : Scan π) : World (Shared π) (Worker π) where
  shared := { queue := { partitions := S.partitions }, pool := S.pool }

/-- A scan after some steps. -/
def reached (S : Scan π) (moves : List (Move Answer Unit Empty)) : World (Shared π) (Worker π) :=
  run (workers S).step (begun S) moves

/-! ## What is held and what was read -/

/-- What a call adds to the bytes. -/
def bytesOf : Update → Int
  | .addBytes bytes => bytes
  | _ => 0

/-- What some calls add, together. -/
def added (amount : Update → Int) (calls : List Update) : Int := (calls.map amount).sum

theorem added_append (amount : Update → Int) (calls more : List Update) :
    added amount (calls ++ more) = added amount calls + added amount more := by
  unfold added
  rw [List.map_append, List.sum_append]

theorem added_call (amount : Update → Int) (s : Shared π) (update : Update) :
    added amount (s.call update).calls = added amount s.calls + amount update := by
  show added amount (s.calls ++ [update]) = _
  rw [added_append]
  exact congrArg (added amount s.calls + ·) (add_zero _)

theorem added_call_of_zero {amount : Update → Int} (s : Shared π) {update : Update} (h : amount update = 0) :
    added amount (s.call update).calls = added amount s.calls := by
  rw [added_call, h, add_zero]

theorem added_callIf_of_zero {amount : Update → Int} (s : Shared π) (reports : Bool) {update : Update}
    (h : amount update = 0) : added amount (s.callIf reports update).calls = added amount s.calls := by
  cases reports with
  | true => exact added_call_of_zero s h
  | false => rfl

@[simp] theorem pool_callIf (s : Shared π) (reports : Bool) (update : Update) :
    (s.callIf reports update).pool = s.pool := by
  cases reports <;> rfl

/-- `AddBytes` has been called, and `bytes_fetched` is not yet zero. -/
def Position.passed : Position π → Bool
  | .addPool => true
  | _ => false

namespace Worker

variable (t t' : Worker π)

/-- What the current cursor has counted. -/
def counter : Nat := t.cursor.elim 0 Cursor.bytesRead

/-- What is to be passed to the pool. -/
def unpooled : Nat := t.bytesFetched + t.counter

/-- What is to be passed to the record. -/
def unpassed : Nat := if t.position.passed then t.counter else t.unpooled

/-- What was read through the cursors of a worker. -/
def read : Nat := (t.closed.map Cursor.payload).sum + t.cursor.elim 0 Cursor.payload

/-- Whatever is read is held. -/
def Keeps : Prop := t'.unpooled + t.read = t.unpooled + t'.read

variable {t t'} {c : Cursor}

theorem Keeps.trans {t'' : Worker π} (h : t.Keeps t') (h' : t'.Keeps t'') : t.Keeps t'' := by
  unfold Keeps at h h' ⊢
  omega

/-- The cursor goes on, with more in its counter. -/
theorem keeps_cursor {c' : Cursor} {n : Nat} (h : t.cursor = some c) (hcursor : t'.cursor = some c')
    (hbytes : c'.bytesRead = c.bytesRead + n) (hpayload : c'.payload = c.payload + n)
    (hfetched : t'.bytesFetched = t.bytesFetched) (hclosed : t'.closed = t.closed) : t.Keeps t' := by
  unfold Keeps unpooled counter read
  rw [h, hcursor, hfetched, hclosed]
  simp only [Option.elim_some]
  omega

/-- A cursor is opened where there was none. -/
theorem keeps_open (h : t.cursor = none) (rowWidth : Nat) (rows : List (List Nat)) (position : Position π) :
    t.Keeps { t with cursor := some { rowWidth, rows }, position } := by
  unfold Keeps unpooled counter read
  rw [h]
  rfl

theorem keeps_close (h : t.cursor = some c) : t.Keeps (t.close c) := by
  show t.bytesFetched + c.bytesRead + 0 + ((t.closed.map _).sum + t.cursor.elim 0 _) =
    t.bytesFetched + t.cursor.elim 0 _ + (((t.closed ++ [c.taken]).map Cursor.payload).sum + 0)
  rw [h, List.map_append, List.sum_append, List.map_singleton, List.sum_singleton, Cursor.payload_taken]
  simp only [Option.elim_some]
  omega

theorem keeps_drain (t : Worker π) : t.Keeps t.drain := by
  unfold drain
  cases h : t.cursor with
  | none => rfl
  | some c =>
      unfold Keeps unpooled counter read
      rw [h]
      simp only [Option.elim_some, Cursor.bytesRead_taken, Cursor.payload_taken]
      omega

theorem keeps_receive (h : t.cursor = some c) (slice : Option LocalSlice) (blobs : List Nat) (a : Answer) :
    t.Keeps (t.receive slice c blobs a) := by
  unfold receive
  split
  · exact keeps_cursor (n := 0) h rfl rfl rfl rfl rfl
  · split
    · exact keeps_close h
    · cases a.appendRaises with
      | some raised =>
          exact keeps_cursor h rfl (Cursor.bytesRead_readBlobs c _) (Cursor.payload_readBlobs c _) rfl rfl
      | none => exact keeps_cursor h rfl (Cursor.bytesRead_readBlobs c _) (Cursor.payload_readBlobs c _) rfl rfl

/-- **A round of the loop keeps what it reads**, whatever becomes of the row. -/
theorem keeps_fetch (h : t.cursor = some c) (slice : Option LocalSlice) (a : Answer) : t.Keeps (t.fetch slice c a) := by
  unfold fetch
  cases a.raises with
  | some msg => rfl
  | none =>
      have htimed : t.Keeps { t with fetchUs := t.fetchUs + a.us } := rfl
      cases hrows : c.rows with
      | nil => exact htimed.trans (keeps_close h)
      | cons blobs rows =>
          have hfetched : t.Keeps { t with cursor := some (c.fetch rows), fetchUs := t.fetchUs + a.us } :=
            keeps_cursor h rfl (Cursor.bytesRead_fetch c rows) (Cursor.payload_fetch c rows) rfl rfl
          exact hfetched.trans (keeps_receive rfl slice blobs a)

/-- A round of the loop with a cursor leads back to its head, behind it, or into the handler. -/
theorem position_fetch (h : t.position = .loop) (slice : Option LocalSlice) (c : Cursor) (a : Answer) :
    (t.fetch slice c a).position = .loop ∨ (t.fetch slice c a).position = .ending ∨
      ∃ msg, (t.fetch slice c a).position = .raising msg := by
  unfold fetch
  cases a.raises with
  | some msg => exact .inr (.inr ⟨msg, rfl⟩)
  | none =>
      cases c.rows with
      | nil => exact .inl h
      | cons blobs rows =>
          simp only [receive]
          split
          · exact .inl h
          · split
            · exact .inr (.inl rfl)
            · cases a.appendRaises with
              | some raised => exact .inr (.inr ⟨raised.2, rfl⟩)
              | none => exact .inl h

theorem passed_fetch (h : t.position = .loop) (slice : Option LocalSlice) (a : Answer) :
    (t.fetch slice c a).position.passed = false := by
  rcases position_fetch h slice c a with h | h | ⟨msg, h⟩ <;> rw [h] <;> rfl

end Worker

/-! ## One step -/

/-- A step: what is passed is no longer held, and what is read is. -/
structure Balances (s s' : Shared π) (t t' : Worker π) : Prop where
  passed : added bytesOf s'.calls + t'.unpassed + t.read = added bytesOf s.calls + t.unpassed + t'.read
  pooled : ∃ n, s'.pool = s.pool.map (· + n) ∧ n + t'.unpooled + t.read = t.unpooled + t'.read

/-- A step that passes nothing. -/
theorem Balances.of_keeps {s s' : Shared π} {t t' : Worker π} (h : t.Keeps t')
    (hcalls : added bytesOf s'.calls = added bytesOf s.calls) (hpool : s'.pool = s.pool)
    (hpassed : t.position.passed = false) (hpassed' : t'.position.passed = false) : Balances s s' t t' := by
  unfold Worker.Keeps at h
  refine ⟨?_, 0, ?_, ?_⟩
  · unfold Worker.unpassed
    rw [hcalls, hpassed, hpassed']
    simp only [Bool.false_eq_true, if_false]
    omega
  · rw [hpool]
    exact Option.map_id'.symm
  · omega

theorem loopStep_balances (S : Scan π) (s : Shared π) {t : Worker π} (h : t.position = .loop) (a : Answer) :
    Balances s (loopStep S s t a).1 t (loopStep S s t a).2 := by
  have hloop : t.position.passed = false := congrArg Position.passed h
  unfold loopStep
  split
  · cases hcursor : t.cursor with
    | some c => exact .of_keeps (Worker.keeps_fetch hcursor S.slice a) rfl rfl hloop (Worker.passed_fetch h S.slice a)
    | none =>
        simp only [takePartition]
        cases nextPartition S.movedFrom s.queue with
        | none => exact .of_keeps rfl rfl rfl hloop rfl
        | some taken => exact .of_keeps rfl rfl rfl hloop rfl
  · exact .of_keeps rfl rfl rfl hloop rfl

theorem pool_map_add (pool : Option Nat) (n : Nat) : pool.map (addBytesReadEstimate n) = pool.map (· + n) := by
  have hadd : addBytesReadEstimate n = (· + n) := by
    funext estimate
    unfold addBytesReadEstimate
    split <;> omega
  rw [hadd]

/-- What is passed to the record is still held for the pool. -/
theorem passBytes_balances (s : Shared π) {t : Worker π} (h : t.position.passed = false) :
    Balances s (passBytes s t).1 t (passBytes s t).2 := by
  unfold passBytes
  split
  · refine ⟨?_, 0, Option.map_id'.symm, ?_⟩
    · have hadded := added_call bytesOf s (.addBytes t.bytesFetched)
      have hunpassed : t.unpassed = t.bytesFetched + t.counter := by
        unfold Worker.unpassed
        rw [h]
        rfl
      show added bytesOf (s.call (.addBytes t.bytesFetched)).calls + t.counter + t.read =
        added bytesOf s.calls + t.unpassed + t.read
      rw [hadded, hunpassed]
      show _ + (t.bytesFetched : Int) + _ + _ = _
      push_cast
      omega
    · exact congrArg (· + t.read) (Nat.zero_add _)
  · exact .of_keeps rfl rfl rfl h rfl

/-- Then nothing of it is held any more. -/
theorem passPool_balances (s : Shared π) {t : Worker π} (h : t.position.passed = true) :
    Balances s (passPool s t).1 t (passPool s t).2 := by
  refine ⟨?_, t.bytesFetched, pool_map_add _ _, ?_⟩
  · have hunpassed : t.unpassed = t.counter := by
      unfold Worker.unpassed
      rw [h]
      rfl
    show added bytesOf s.calls + ((0 + t.counter : Nat) : Int) + t.read = added bytesOf s.calls + t.unpassed + t.read
    rw [hunpassed, Nat.zero_add]
  · show t.bytesFetched + (0 + t.counter) + t.read = t.bytesFetched + t.counter + t.read
    rw [Nat.zero_add]

/-- What a worker keeps: it has no cursor while it opens one, and it holds nothing when a call returns. -/
def Worker.Tidy (t : Worker π) : Prop :=
  match t.position with
  | .opening _ | .recorded _ | .checked _ => t.cursor = none
  | .addBytes | .addPool => t.counter = 0
  | .addTime | .updateTotal | .returned => t.counter = 0 ∧ t.bytesFetched = 0
  | _ => True

/-- Is it about to open a cursor? -/
def Position.opens : Position π → Bool
  | .opening _ | .recorded _ | .checked _ => true
  | _ => false

theorem Worker.Tidy.cursor_none {t : Worker π} (htidy : t.Tidy) (h : t.position.opens = true) :
    t.cursor = none := by
  unfold Tidy at htidy
  cases hposition : t.position <;> rw [hposition] at htidy h <;> first | exact htidy | cases h

theorem Worker.counter_drain (t : Worker π) : t.drain.counter = 0 := by
  unfold drain counter
  cases h : t.cursor with
  | none =>
      simp only
      rw [h]
      rfl
  | some c => rfl

theorem Worker.tidy_fetch {t : Worker π} (h : t.position = .loop) (slice : Option LocalSlice) (c : Cursor)
    (a : Answer) : (t.fetch slice c a).Tidy := by
  unfold Tidy
  rcases position_fetch h slice c a with h | h | ⟨msg, h⟩ <;> rw [h] <;> trivial

theorem loopStep_tidy (S : Scan π) (s : Shared π) {t : Worker π} (h : t.position = .loop) (a : Answer) :
    (loopStep S s t a).2.Tidy := by
  unfold loopStep
  split
  · cases hcursor : t.cursor with
    | some c => exact Worker.tidy_fetch h S.slice c a
    | none =>
        simp only [takePartition]
        cases nextPartition S.movedFrom s.queue with
        | none => trivial
        | some taken => exact hcursor
  · trivial

theorem passBytes_tidy (s : Shared π) {t : Worker π} (h : t.counter = 0) : (passBytes s t).2.Tidy := by
  unfold passBytes
  split_ifs with hbytes
  · exact h
  · exact ⟨h, Nat.eq_zero_of_not_pos hbytes⟩

theorem act_tidy (S : Scan π) (s : Shared π) (t : Worker π) (a : Answer) (htidy : t.Tidy) :
    (act S s t a).2.Tidy := by
  unfold act
  have hsame := htidy
  unfold Worker.Tidy at htidy
  cases h : t.position <;> rw [h] at htidy
  case loop => exact loopStep_tidy S s h a
  case opening spec =>
    cases a.raises with
    | some msg => trivial
    | none => exact htidy
  case recorded spec =>
    cases a.raises with
    | some msg => trivial
    | none => exact htidy
  case checked spec => cases a.raises <;> trivial
  case ending => exact t.counter_drain
  case addBytes => exact passBytes_tidy s htidy
  case addPool => exact ⟨htidy, rfl⟩
  case addTime => exact htidy
  case updateTotal => exact htidy
  case failed => exact hsame
  all_goals trivial

/-- **Whatever a worker does, what it reads is passed or held.** -/
theorem act_balances (S : Scan π) (s : Shared π) (t : Worker π) (a : Answer) (htidy : t.Tidy) :
    Balances s (act S s t a).1 t (act S s t a).2 := by
  have hpassed {position : Position π} (h : t.position = position) : t.position.passed = position.passed :=
    congrArg Position.passed h
  unfold act
  cases h : t.position with
  | returned => exact .of_keeps rfl rfl rfl (hpassed h) rfl
  | loop => exact loopStep_balances S s h a
  | opening spec =>
      cases a.raises with
      | some msg => exact .of_keeps rfl rfl rfl (hpassed h) rfl
      | none => exact .of_keeps rfl (added_call_of_zero _ rfl) rfl (hpassed h) rfl
  | recorded spec =>
      cases a.raises with
      | some msg => exact .of_keeps rfl rfl rfl (hpassed h) rfl
      | none => exact .of_keeps rfl rfl rfl (hpassed h) rfl
  | checked spec =>
      cases a.raises with
      | some msg => exact .of_keeps rfl (added_call_of_zero _ rfl) rfl (hpassed h) rfl
      | none =>
          have hcursor := htidy.cursor_none (congrArg Position.opens h)
          exact .of_keeps (Worker.keeps_open hcursor _ _ _) rfl rfl (hpassed h) rfl
  | opened => exact .of_keeps rfl (added_call_of_zero _ rfl) rfl (hpassed h) rfl
  | openedTimed => exact .of_keeps rfl (added_call_of_zero _ rfl) rfl (hpassed h) rfl
  | ending =>
      -- the rows are reported here; the bytes that are drained go from the cursor to the worker
      have hkeeps : t.Keeps { t.drain with position := .addBytes } := Worker.keeps_drain t
      exact .of_keeps hkeeps (added_callIf_of_zero _ _ rfl) (pool_callIf _ _ _) (hpassed h) rfl
  | addBytes => exact passBytes_balances s (hpassed h)
  | addPool => exact passPool_balances s (hpassed h)
  | addTime =>
      exact .of_keeps rfl (added_callIf_of_zero _ _ rfl) (pool_callIf _ _ _) (hpassed h) rfl
  | updateTotal => exact .of_keeps rfl (added_call_of_zero _ rfl) rfl (hpassed h) rfl
  | raising msg => exact .of_keeps rfl (added_call_of_zero _ rfl) rfl (hpassed h) rfl
  | failed => exact .of_keeps rfl rfl rfl (hpassed h) (hpassed h)

/-! ## Any number of steps -/

/-- What the workers hold together. -/
inductive Item where
  | unpassed | unpooled | read

/-- What a worker contributes. -/
def Worker.account (t : Worker π) : Item → Nat
  | .unpassed => t.unpassed
  | .unpooled => t.unpooled
  | .read => t.read

/-- What was read is passed to the record or held, and passed to the pool, if there is one, or held. -/
structure Conserves (S : Scan π) (s : Shared π) (account : Item → Nat) : Prop where
  passed : added bytesOf s.calls + account .unpassed = account .read
  pooled : ∃ n, s.pool = S.pool.map (· + n) ∧ n + account .unpooled = account .read

theorem Conserves.of_balances {S : Scan π} {s s' : Shared π} {t t' : Worker π} (h : Balances s s' t t')
    (frame : Item → Nat) (hbefore : Conserves S s (t.account + frame)) : Conserves S s' (t'.account + frame) := by
  obtain ⟨hpassed, n, hpool, hpooled⟩ := h
  obtain ⟨hpassedBefore, m, hpoolBefore, hpooledBefore⟩ := hbefore
  constructor
  · have hsum : added bytesOf s.calls + ((t.unpassed + frame .unpassed : Nat) : Int) =
        ((t.read + frame .read : Nat) : Int) := hpassedBefore
    show added bytesOf s'.calls + ((t'.unpassed + frame .unpassed : Nat) : Int) = ((t'.read + frame .read : Nat) : Int)
    omega
  · have hsum : m + (t.unpooled + frame .unpooled) = t.read + frame .read := hpooledBefore
    refine ⟨m + n, ?_, ?_⟩
    · rw [hpool, hpoolBefore, Option.map_map]
      exact congrArg (S.pool.map ·) (funext fun base => Nat.add_assoc base m n)
    · show m + n + (t'.unpooled + frame .unpooled) = t'.read + frame .read
      omega

theorem workers_conserve (S : Scan π) :
    GuardedFrames Worker.account (workers S) Worker.Tidy (Conserves S) where
  start _ := by
    funext item
    cases item <;> rfl
  good_start _ := ⟨rfl, rfl⟩
  good_act := act_tidy S
  act s t a frame htidy h := h.of_balances (act_balances S s t a htidy) frame
  outside _ event := nomatch event

theorem reached_tidy (S : Scan π) (moves : List (Move Answer Unit Empty)) :
    ∀ t ∈ (reached S moves).tasks, t.Tidy :=
  Program.forall_tasks (workers_conserve S).good_start (workers_conserve S).good_act (List.forall_mem_nil _) moves

/-- **In every reachable state** what was read is passed or held. -/
theorem reached_conserves (S : Scan π) (moves : List (Move Answer Unit Empty)) :
    Conserves S (reached S moves).shared (total Worker.account (reached S moves).tasks) :=
  (workers_conserve S).run (List.forall_mem_nil _) ⟨rfl, 0, Option.map_id'.symm, rfl⟩ moves

/-- No call is in progress, and none has failed. -/
def Settled (w : World (Shared π) (Worker π)) : Prop := ∀ t ∈ w.tasks, t.position = .returned

/-- What was read through all cursors of all workers. -/
def payload (w : World (Shared π) (Worker π)) : Nat := total Worker.read w.tasks

theorem Worker.Tidy.returned {t : Worker π} (htidy : t.Tidy) (h : t.position = .returned) :
    t.counter = 0 ∧ t.bytesFetched = 0 := by
  unfold Tidy at htidy
  rw [h] at htidy
  exact htidy

theorem Worker.Tidy.holds_nothing {t : Worker π} (htidy : t.Tidy) (h : t.position = .returned) :
    t.unpassed = 0 ∧ t.unpooled = 0 := by
  obtain ⟨hcounter, hfetched⟩ := htidy.returned h
  have hunpooled : t.unpooled = 0 := by
    unfold unpooled
    rw [hcounter, hfetched]
  refine ⟨?_, hunpooled⟩
  unfold unpassed
  rw [hcounter, hunpooled, ite_self]

/-- Between calls everything is passed. -/
theorem settled_passed (S : Scan π) (moves : List (Move Answer Unit Empty)) (h : Settled (reached S moves)) :
    added bytesOf (reached S moves).shared.calls = payload (reached S moves) ∧
      (reached S moves).shared.pool = S.pool.map (· + payload (reached S moves)) := by
  have htidy := reached_tidy S moves
  obtain ⟨hpassed, n, hpool, hpooled⟩ := reached_conserves S moves
  rw [total_apply, total_apply] at hpassed hpooled
  have hunpassed : total (fun t : Worker π => t.account .unpassed) (reached S moves).tasks = 0 :=
    total_eq_zero _ fun t ht => ((htidy t ht).holds_nothing (h t ht)).1
  have hunpooled : total (fun t : Worker π => t.account .unpooled) (reached S moves).tasks = 0 :=
    total_eq_zero _ fun t ht => ((htidy t ht).holds_nothing (h t ht)).2
  rw [hunpassed] at hpassed
  rw [hunpooled] at hpooled
  obtain rfl : n = payload (reached S moves) := hpooled
  exact ⟨(add_zero _).symm.trans hpassed, hpool⟩

end ScanBytes
end FirebirdScan
