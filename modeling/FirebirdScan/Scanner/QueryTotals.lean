import FirebirdScan.Scanner.ScanBytes

/-!
# `Scanner.QueryTotals` — what `firebird_last_query` says of the rows and bytes of a scan

Every worker reports its rows and bytes at the end of a call; but every partition that is opened replaces the record,
with the numbers at zero. What was reported before is lost. So the record is that of the whole scan exactly if no
partition is opened behind a call that has reported anything (`queryWide_iff`): with a single worker, if the first call
gets to the last partition.

The bytes themselves are all passed on (`scan_countsBytes`), whatever becomes of the record.

`Tally` follows a number through the calls: what was added since the query was last recorded, and what is lost. What
the workers emit and read depends on the scan alone (`completed_records`).
-/

namespace FirebirdScan
namespace ScanBytes

open Tasks Workers Run

variable {π : Type}

/-! ## A number in the record -/

/-- What a call adds to the rows. -/
def rowsOf : Update → Int
  | .addRows n => n
  | _ => 0

/-- A number of a record that starts at zero, and to which the calls add. -/
structure Counts (metric : QueryTelemetry → Int) (amount : Update → Int) : Prop where
  record : ∀ (state : ObservabilityState) (rec : QueryTelemetry) (logSize : Int64) (now : Int),
    metric (state.recordQuery rec logSize now).last = metric rec
  add : ∀ (state : ObservabilityState) (update : Update), update.records = false →
    metric (state.step update).last = metric state.last + amount update
  zero : ∀ update : Update, update.records = true → amount update = 0

theorem counts_rows : Counts QueryTelemetry.rowsRead rowsOf where
  record state rec logSize now := by
    unfold ObservabilityState.recordQuery
    split_ifs <;> rfl
  add state update h := by
    cases update with
    | recordQuery rec logSize now => cases h
    | addRows n => rfl
    | _ => exact (add_zero _).symm
  zero update h := by
    cases update with
    | recordQuery rec logSize now => rfl
    | _ => cases h

theorem counts_bytes : Counts QueryTelemetry.bytesReadEstimate bytesOf where
  record state rec logSize now := by
    unfold ObservabilityState.recordQuery
    split_ifs <;> rfl
  add state update h := by
    cases update with
    | recordQuery rec logSize now => cases h
    | addBytes bytes => rfl
    | _ => exact (add_zero _).symm
  zero update h := by
    cases update with
    | recordQuery rec logSize now => rfl
    | _ => cases h

/-- What was added since the query was last recorded, and what was lost when it was. -/
structure Tally where
  since : Int := 0
  lost : Int := 0

def Tally.step (amount : Update → Int) (tally : Tally) (update : Update) : Tally :=
  if update.records then { since := 0, lost := tally.lost + tally.since }
  else { tally with since := tally.since + amount update }

def tally (amount : Update → Int) (calls : List Update) : Tally := run (Tally.step amount) {} calls

/-- What a scan passes: an empty record, or an amount that is not negative. -/
def Sound : Update → Prop
  | .recordQuery rec _ _ => rec.rowsRead = 0 ∧ rec.bytesReadEstimate = 0
  | .addRows n => 0 ≤ n
  | .addBytes bytes => 0 ≤ bytes
  | _ => True

theorem tally_concat (amount : Update → Int) (calls : List Update) (update : Update) :
    tally amount (calls ++ [update]) = (tally amount calls).step amount update := run_concat _ _ _ _

/-- Nothing is negative, and nothing else was added. -/
theorem tally_spec {amount : Update → Int} {calls : List Update} (hzero : ∀ u, u.records = true → amount u = 0)
    (hcalls : ∀ u ∈ calls, 0 ≤ amount u) :
    0 ≤ (tally amount calls).since ∧ 0 ≤ (tally amount calls).lost ∧
      (tally amount calls).lost + (tally amount calls).since = added amount calls := by
  induction calls using List.reverseRecOn with
  | nil => exact ⟨le_refl _, le_refl _, rfl⟩
  | append_singleton calls update ih =>
      obtain ⟨hbefore, hupdate⟩ := List.forall_mem_append.mp hcalls
      obtain ⟨hsince, hlost, hsum⟩ := ih hbefore
      have hnonneg := List.forall_mem_singleton.mp hupdate
      have hadded : added amount (calls ++ [update]) = added amount calls + amount update := by
        rw [added_append]
        exact congrArg (added amount calls + ·) (add_zero _)
      rw [tally_concat, Tally.step, hadded]
      split_ifs with hrecords
      · rw [hzero update hrecords]
        refine ⟨le_refl _, add_nonneg hlost hsince, ?_⟩
        rw [← hsum]
      · refine ⟨add_nonneg hsince hnonneg, hlost, ?_⟩
        rw [← hsum, add_assoc]

/-- **The record has what was added since it was made**, if it was made at all. -/
theorem last_eq_since {metric : QueryTelemetry → Int} {amount : Update → Int} (hcounts : Counts metric amount)
    (before : List Update) {calls : List Update} (hrecord : ∃ u ∈ calls, u.records = true)
    (hempty : ∀ rec logSize now, Update.recordQuery rec logSize now ∈ calls → metric rec = 0) :
    metric (ObservabilityState.after (before ++ calls)).last = (tally amount calls).since := by
  induction calls using List.reverseRecOn with
  | nil => exact absurd hrecord (by simp)
  | append_singleton calls update ih =>
      have hafter : ObservabilityState.after (before ++ (calls ++ [update])) =
          (ObservabilityState.after (before ++ calls)).step update := by
        rw [← List.append_assoc]
        exact run_concat _ _ _ _
      rw [hafter, tally_concat, Tally.step]
      cases hrecords : update.records with
      | true =>
          -- a record begins at zero, whatever was before
          cases update with
          | recordQuery rec logSize now =>
              have hzero := hempty rec logSize now (List.mem_append_right _ (List.mem_singleton_self _))
              exact (hcounts.record _ rec logSize now).trans hzero
          | _ => cases hrecords
      | false =>
          rw [hcounts.add _ update hrecords]
          have hbefore : ∃ u ∈ calls, u.records = true := by
            obtain ⟨u, hu, hur⟩ := hrecord
            rcases List.mem_append.mp hu with hu | hu
            · exact ⟨u, hu, hur⟩
            · rw [List.mem_singleton.mp hu, hrecords] at hur
              cases hur
          rw [ih hbefore fun rec logSize now h => hempty rec logSize now (List.mem_append_left _ h)]
          rfl

/-! ## What is still to come -/

/-- The rows and the bytes that a cursor still brings, when so many rows have been skipped and emitted. -/
def due (slice : Option LocalSlice) (rowWidth : Nat) : List (List Nat) → Nat → Nat → Nat × Nat
  | [], _, _ => (0, 0)
  | blobs :: rows, skipped, emitted =>
      if slice.any fun s => skipped < s.offset then (0, rowWidth) + due slice rowWidth rows (skipped + 1) emitted
      else if slice.any fun s => s.limit ≤ emitted then (0, rowWidth)
      else
        (1, rowWidth + blobs.sum) +
          due slice rowWidth rows skipped (if slice.isSome then emitted + 1 else emitted)

/-- What a partition brings. -/
def Scan.due (S : Scan π) (spec : π) (skipped emitted : Nat) : Nat × Nat :=
  ScanBytes.due S.slice (S.rowWidth spec) (S.rows spec) skipped emitted

/-- The partition for which a cursor is to be opened. -/
def Position.spec : Position π → Option π
  | .opening spec | .recorded spec | .checked spec => some spec
  | _ => none

/-- The partition has not been recorded. -/
def Position.unrecorded : Position π → Nat
  | .opening _ => 1
  | _ => 0

/-- The rows of the call have been reported. -/
def Position.reported : Position π → Bool
  | .returned | .addBytes | .addPool | .addTime | .updateTotal => true
  | _ => false

/-- The call has failed. -/
def Position.failing : Position π → Bool
  | .raising _ | .failed => true
  | _ => false

namespace Worker

variable (S : Scan π) (t : Worker π)

/-- The rows that are to be reported. -/
def unreported : Nat := if t.position.reported then 0 else t.row

/-- What a worker still brings from the partition that it has taken. -/
def due : Nat × Nat :=
  t.position.spec.elim 0 (fun spec => S.due spec t.rowsSkipped t.rowsEmitted) +
    t.cursor.elim 0 (fun c => ScanBytes.due S.slice c.rowWidth c.rows t.rowsSkipped t.rowsEmitted)

/-- What it brings and has brought. -/
def progress : Nat × Nat := (t.emitted, t.read) + t.due S

variable {S t} {t' : Worker π} {c : Cursor}

/-- The same partition or cursor, and nothing new of it. -/
theorem progress_eq (hspec : t'.position.spec = t.position.spec) (hcursor : t'.cursor = t.cursor)
    (hclosed : t'.closed = t.closed) (hskipped : t'.rowsSkipped = t.rowsSkipped)
    (hrows : t'.rowsEmitted = t.rowsEmitted) (hemitted : t'.emitted = t.emitted) :
    t'.progress S = t.progress S := by
  unfold progress due read
  rw [hspec, hcursor, hclosed, hskipped, hrows, hemitted]

/-- What a worker with a cursor brings. -/
theorem progress_cursor (hspec : t.position.spec = none) (hcursor : t.cursor = some c) :
    t.progress S = (t.emitted, (t.closed.map Cursor.payload).sum + c.payload) +
      ScanBytes.due S.slice c.rowWidth c.rows t.rowsSkipped t.rowsEmitted := by
  unfold progress due read
  rw [hspec, hcursor]
  exact congrArg (_ + ·) (zero_add _)

/-- What one without a cursor does. -/
theorem progress_none (hspec : t.position.spec = none) (hcursor : t.cursor = none) :
    t.progress S = (t.emitted, (t.closed.map Cursor.payload).sum) := by
  unfold progress due read
  rw [hspec, hcursor]
  rfl

theorem progress_close {position : Position π} (hposition : position.spec = none) :
    Worker.progress S { t.close c with position } =
      (t.emitted, (t.closed.map Cursor.payload).sum + c.payload) := by
  rw [progress_none hposition rfl]
  show (t.emitted, ((t.closed ++ [c.taken]).map Cursor.payload).sum) = _
  rw [List.map_append, List.sum_append, List.map_singleton, List.sum_singleton, Cursor.payload_taken]

theorem progress_drain (hspec : t.position.spec = none) {position : Position π} (hposition : position.spec = none) :
    Worker.progress S { t.drain with position } = t.progress S := by
  unfold drain
  cases hcursor : t.cursor with
  | none => exact progress_eq (hposition.trans hspec.symm) rfl rfl rfl rfl rfl
  | some c =>
      rw [progress_cursor hspec hcursor]
      exact progress_cursor (c := c.taken) hposition rfl

theorem pair_add (a b c d : Nat) (p : Nat × Nat) : (a + c, b + d) + p = (a, b) + ((c, d) + p) :=
  add_assoc (a, b) (c, d) p

/-- **A row that is fetched was due**, whatever becomes of it. -/
theorem progress_receive (hspec : t.position.spec = none) {blobs : List Nat} {rows : List (List Nat)}
    (hrows : c.rows = blobs :: rows) (hcursor : t.cursor = some c) (a : Answer)
    (hfailing : (t.receive S.slice (c.fetch rows) blobs a).position.failing = false) :
    (t.receive S.slice (c.fetch rows) blobs a).progress S = t.progress S := by
  rw [progress_cursor hspec hcursor, hrows, ScanBytes.due]
  unfold receive at hfailing ⊢
  by_cases hskip : (S.slice.any fun s => t.rowsSkipped < s.offset) = true
  · rw [if_pos hskip, if_pos hskip]
    refine Eq.trans (progress_cursor (c := c.fetch rows) hspec rfl) ?_
    rw [Cursor.payload_fetch, ← Nat.add_assoc]
    exact pair_add t.emitted _ 0 c.rowWidth _
  · rw [if_neg hskip] at hfailing ⊢
    rw [if_neg hskip]
    by_cases hfull : (S.slice.any fun s => s.limit ≤ t.rowsEmitted) = true
    · rw [if_pos hfull, if_pos hfull, progress_close rfl, Cursor.payload_fetch, Prod.mk_add_mk, add_assoc]
      rfl
    · rw [if_neg hfull] at hfailing ⊢
      rw [if_neg hfull]
      cases happend : a.appendRaises with
      | some raised =>
          rw [happend] at hfailing
          cases hfailing
      | none =>
          refine Eq.trans (progress_cursor (c := (c.fetch rows).readBlobs blobs) hspec rfl) ?_
          rw [Cursor.payload_readBlobs, Cursor.payload_fetch, Nat.add_assoc c.payload, ← Nat.add_assoc _ c.payload]
          exact pair_add t.emitted _ 1 (c.rowWidth + blobs.sum) _

/-- A round of the loop that does not fail. -/
theorem progress_fetch (hspec : t.position.spec = none) (hcursor : t.cursor = some c) (a : Answer)
    (hfailing : (t.fetch S.slice c a).position.failing = false) : (t.fetch S.slice c a).progress S = t.progress S := by
  unfold fetch at hfailing ⊢
  cases hraises : a.raises with
  | some msg =>
      rw [hraises] at hfailing
      cases hfailing
  | none =>
      rw [hraises] at hfailing
      have htimed : Worker.progress S { t with fetchUs := t.fetchUs + a.us } = t.progress S :=
        progress_eq rfl rfl rfl rfl rfl rfl
      cases hrows : c.rows with
      | nil =>
          rw [progress_cursor hspec hcursor, hrows]
          exact progress_close (t := { t with fetchUs := t.fetchUs + a.us }) hspec
      | cons blobs rows =>
          simp only [hrows] at hfailing
          exact (progress_receive (t := { t with fetchUs := t.fetchUs + a.us }) hspec hrows hcursor a hfailing).trans
            htimed

/-- A row is counted in the call and over all calls. -/
theorem row_fetch (slice : Option LocalSlice) (c : Cursor) (a : Answer) :
    (t.fetch slice c a).row + t.emitted = t.row + (t.fetch slice c a).emitted := by
  unfold fetch
  cases a.raises with
  | some msg => rfl
  | none =>
      cases c.rows with
      | nil => rfl
      | cons blobs rows =>
          simp only [receive]
          split
          · rfl
          · split
            · rfl
            · cases a.appendRaises with
              | some raised => rfl
              | none => exact Nat.add_right_comm _ _ _

end Worker

/-! ## One step -/

/-- The calls that are made in a step: the query is recorded, or nothing is recorded. -/
def recordsOf (calls : List Update) : Nat := calls.countP Update.records

/-- What a step does. When a call fails, the rows that its worker still brings no longer matter. -/
structure Advances (S : Scan π) (s s' : Shared π) (t t' : Worker π) : Prop where
  calls : ∃ us, s'.calls = s.calls ++ us ∧ (∀ u ∈ us, Sound u) ∧
    (t.position.unrecorded = 0 ∨ t'.position.failing = true → ∀ u ∈ us, u.records = false)
  reported : added rowsOf s'.calls + t'.unreported + t.emitted = added rowsOf s.calls + t.unreported + t'.emitted
  failing : t.position.failing = true → t'.position.failing = true
  records : t'.position.failing = false → recordsOf s'.calls + t'.position.unrecorded + s.queue.nextPartition =
    recordsOf s.calls + t.position.unrecorded + s'.queue.nextPartition
  progress : (s'.queue = s.queue ∧ (t'.position.failing = false → t'.progress S = t.progress S)) ∨
    ∃ spec, nextPartition S.movedFrom s.queue = some (spec, s'.queue) ∧
      t'.progress S = t.progress S + S.due spec t.rowsSkipped t.rowsEmitted

/-- A call that records nothing and reports no rows. -/
def Quiet (u : Update) : Prop := Sound u ∧ u.records = false ∧ rowsOf u = 0

/-- A step with at most such calls, and without a new partition. -/
theorem Advances.quiet {S : Scan π} {s s' : Shared π} {t t' : Worker π} (us : List Update)
    (hcalls : s'.calls = s.calls ++ us) (hquiet : ∀ u ∈ us, Quiet u) (hqueue : s'.queue = s.queue)
    (hfailing : t.position.failing = true → t'.position.failing = true)
    (hreported : t'.unreported + t.emitted = t.unreported + t'.emitted)
    (hunrecorded : t'.position.failing = false → t'.position.unrecorded = t.position.unrecorded)
    (hprogress : t'.position.failing = false → t'.progress S = t.progress S) : Advances S s s' t t' where
  calls := ⟨us, hcalls, fun u hu => (hquiet u hu).1, fun _ u hu => (hquiet u hu).2.1⟩
  reported := by
    have hadded : added rowsOf us = 0 := List.sum_eq_zero (by simpa using fun u hu => (hquiet u hu).2.2)
    rw [hcalls, added_append, hadded]
    omega
  failing := hfailing
  records hok := by
    have hnone : recordsOf us = 0 := List.countP_eq_zero.mpr fun u hu => by simp [(hquiet u hu).2.1]
    unfold recordsOf at hnone ⊢
    rw [hcalls, List.countP_append, hnone, hqueue, hunrecorded hok, Nat.add_zero]
  progress := .inl ⟨hqueue, hprogress⟩

theorem unreported_loop {t : Worker π} (h : t.position = .loop) : t.unreported = t.row := by
  unfold Worker.unreported
  rw [h]
  rfl

/-- A row is fetched, or the partition ends. -/
theorem fetch_advances (S : Scan π) (s : Shared π) {t : Worker π} (h : t.position = .loop) {c : Cursor}
    (hcursor : t.cursor = some c) (a : Answer) : Advances S s s t (t.fetch S.slice c a) := by
  refine .quiet [] (List.append_nil _).symm (List.forall_mem_nil _) rfl ?_ ?_ ?_ ?_
  · rw [h]
    exact nofun
  · have hrow : (t.fetch S.slice c a).unreported = (t.fetch S.slice c a).row := by
      unfold Worker.unreported
      rcases Worker.position_fetch h S.slice c a with h | h | ⟨msg, h⟩ <;> rw [h] <;> rfl
    rw [hrow, unreported_loop h]
    exact Worker.row_fetch S.slice c a
  · have hunrecorded : t.position.unrecorded = 0 := congrArg Position.unrecorded h
    intro _
    rw [hunrecorded]
    rcases Worker.position_fetch h S.slice c a with h | h | ⟨msg, h⟩ <;> rw [h] <;> rfl
  · exact Worker.progress_fetch (congrArg Position.spec h) hcursor a

/-- A partition is taken off the queue. -/
theorem take_advances (S : Scan π) (s : Shared π) {t : Worker π} (h : t.position = .loop) (hcursor : t.cursor = none)
    {spec : π} {queue : GlobalState π} (htaken : nextPartition S.movedFrom s.queue = some (spec, queue)) :
    Advances S s { s with queue } t { t with position := .opening spec } := by
  refine ⟨⟨[], (List.append_nil _).symm, List.forall_mem_nil _, fun _ => List.forall_mem_nil _⟩, ?_, ?_, ?_,
    .inr ⟨spec, htaken, ?_⟩⟩
  · rw [unreported_loop h]
    rfl
  · rw [h]
    exact nofun
  · have hunrecorded : t.position.unrecorded = 0 := congrArg Position.unrecorded h
    have hnext := (nextPartition_eq_some htaken).2.1
    intro _
    show recordsOf s.calls + 1 + s.queue.nextPartition =
      recordsOf s.calls + t.position.unrecorded + queue.nextPartition
    omega
  · have hspec : t.position.spec = none := congrArg Position.spec h
    rw [Worker.progress_none hspec hcursor]
    unfold Worker.progress Worker.due Worker.read
    rw [hcursor]
    exact congrArg (_ + ·) (add_zero _)

/-- The call comes to its end. -/
theorem leave_advances (S : Scan π) (s : Shared π) {t : Worker π} (h : t.position = .loop) :
    Advances S s s t { t with position := .ending } := by
  have hspec : t.position.spec = none := congrArg Position.spec h
  refine .quiet [] (List.append_nil _).symm (List.forall_mem_nil _) rfl ?_ ?_ ?_ ?_
  · rw [h]
    exact id
  · rw [unreported_loop h]
    rfl
  · intro _
    exact (congrArg Position.unrecorded h).symm
  · intro _
    exact Worker.progress_eq hspec.symm rfl rfl rfl rfl rfl

theorem loopStep_advances (S : Scan π) (s : Shared π) {t : Worker π} (h : t.position = .loop) (a : Answer) :
    Advances S s (loopStep S s t a).1 t (loopStep S s t a).2 := by
  unfold loopStep
  split
  · cases hcursor : t.cursor with
    | some c => exact fetch_advances S s h hcursor a
    | none =>
        simp only [takePartition]
        cases htaken : nextPartition S.movedFrom s.queue with
        | none => exact leave_advances S s h
        | some taken => exact take_advances S s h hcursor htaken
  · exact leave_advances S s h

/-- The record is made: from here on the partition counts as recorded. -/
theorem record_advances (S : Scan π) (s : Shared π) {t : Worker π} {spec : π} (h : t.position = .opening spec)
    (a : Answer) : Advances S s (s.call (.recordQuery (captured S spec a) a.logSize a.now)) t
      { t with position := .recorded spec } := by
  refine ⟨⟨_, rfl, List.forall_mem_singleton.mpr ⟨rfl, rfl⟩, ?_⟩, ?_, ?_, ?_, .inl ⟨rfl, ?_⟩⟩
  · rw [h]
    rintro (hzero | hfailing)
    · cases hzero
    · cases hfailing
  · rw [added_call_of_zero s rfl]
    unfold Worker.unreported
    rw [h]
    rfl
  · rw [h]
    exact nofun
  · intro _
    rw [h]
    show List.countP _ (s.calls ++ [_]) + 0 + _ = List.countP _ s.calls + 1 + _
    rw [List.countP_append]
    rfl
  · intro _
    exact Worker.progress_eq (congrArg Position.spec h).symm rfl rfl rfl rfl rfl

/-- The cursor is opened: what the partition was to bring, the cursor does. -/
theorem open_advances (S : Scan π) (s : Shared π) {t : Worker π} {spec : π} (h : t.position = .checked spec)
    (hcursor : t.cursor = none) : Advances S s s t
      { t with cursor := some { rowWidth := S.rowWidth spec, rows := S.rows spec }, position := .opened } := by
  refine .quiet [] (List.append_nil _).symm (List.forall_mem_nil _) rfl ?_ ?_ ?_ ?_
  · rw [h]
    exact nofun
  · unfold Worker.unreported
    rw [h]
    rfl
  · intro _
    rw [h]
    rfl
  · intro _
    refine (Worker.progress_cursor rfl rfl).trans ?_
    unfold Worker.progress Worker.due Worker.read
    rw [h, hcursor]
    exact congrArg (_ + ·) (add_zero _).symm

/-- The rows of the call are reported, and no longer to be. -/
theorem reportRows_advances (S : Scan π) (s : Shared π) {t : Worker π} (h : t.position = .ending) :
    Advances S s (s.callIf (t.row > 0) (.addRows t.row)) t { t.drain with position := .addBytes } := by
  have hunreported : t.unreported = t.row := by
    unfold Worker.unreported
    rw [h]
    rfl
  have hemitted : t.drain.emitted = t.emitted := by
    unfold Worker.drain
    split <;> rfl
  have hprogress : Worker.progress S { t.drain with position := .addBytes } = t.progress S :=
    Worker.progress_drain (congrArg Position.spec h) rfl
  have hunrecorded : t.position.unrecorded = 0 := congrArg Position.unrecorded h
  -- without a row there is no call, and nothing to report
  by_cases hrow : t.row > 0
  · rw [Shared.callIf, decide_eq_true hrow, if_pos rfl]
    refine ⟨⟨_, rfl, List.forall_mem_singleton.mpr (Int.natCast_nonneg _), fun _ => List.forall_mem_singleton.mpr rfl⟩,
      ?_, ?_, ?_, .inl ⟨rfl, fun _ => hprogress⟩⟩
    · rw [added_call, hunreported]
      show added rowsOf s.calls + (t.row : Int) + 0 + t.emitted = added rowsOf s.calls + t.row + t.drain.emitted
      rw [hemitted, add_zero]
    · rw [h]
      exact nofun
    · intro _
      rw [hunrecorded]
      show List.countP _ (s.calls ++ [_]) + 0 + _ = _
      rw [List.countP_append]
      rfl
  · rw [Shared.callIf, decide_eq_false hrow]
    refine .quiet [] (List.append_nil _).symm (List.forall_mem_nil _) rfl ?_ ?_ ?_ ?_
    · rw [h]
      exact nofun
    · show 0 + t.emitted = t.unreported + t.drain.emitted
      rw [hunreported, hemitted, Nat.eq_zero_of_not_pos hrow]
    · intro _
      exact hunrecorded.symm
    · intro _
      exact hprogress

/-- A worker moves on, and may make calls that change nothing here. -/
theorem moves_advances (S : Scan π) {s s' : Shared π} {t : Worker π} {position next : Position π}
    (h : t.position = position) (us : List Update) (hcalls : s'.calls = s.calls ++ us) (hquiet : ∀ u ∈ us, Quiet u)
    (hqueue : s'.queue = s.queue) (hfailing : position.failing = true → next.failing = true)
    (hreported : next.reported = position.reported)
    (hsame : next.failing = false → next.unrecorded = position.unrecorded ∧ next.spec = position.spec) :
    Advances S s s' t { t with position := next } := by
  subst h
  refine .quiet us hcalls hquiet hqueue hfailing ?_ (fun hok => (hsame hok).1) ?_
  · unfold Worker.unreported
    rw [hreported]
  · intro hok
    exact Worker.progress_eq (hsame hok).2 rfl rfl rfl rfl rfl

theorem quiet_nil : ∀ u ∈ ([] : List Update), Quiet u := List.forall_mem_nil _

theorem quiet_singleton {u : Update} (h : Quiet u) : ∀ v ∈ [u], Quiet v := List.forall_mem_singleton.mpr h

/-- A call that is made only if there is something to report. -/
theorem calls_callIf (s : Shared π) (reports : Bool) {u : Update} (h : Quiet u) :
    ∃ us, (s.callIf reports u).calls = s.calls ++ us ∧ (∀ v ∈ us, Quiet v) ∧ (s.callIf reports u).queue = s.queue := by
  cases reports with
  | true => exact ⟨[u], rfl, quiet_singleton h, rfl⟩
  | false => exact ⟨[], (List.append_nil _).symm, quiet_nil, rfl⟩

theorem passBytes_advances (S : Scan π) (s : Shared π) {t : Worker π} (h : t.position = .addBytes) :
    Advances S s (passBytes s t).1 t (passBytes s t).2 := by
  unfold passBytes
  split
  · exact moves_advances S h _ rfl (quiet_singleton ⟨Int.natCast_nonneg _, rfl, rfl⟩) rfl nofun rfl fun _ => ⟨rfl, rfl⟩
  · exact moves_advances S h [] (List.append_nil _).symm quiet_nil rfl nofun rfl fun _ => ⟨rfl, rfl⟩

theorem passPool_advances (S : Scan π) (s : Shared π) {t : Worker π} (h : t.position = .addPool) :
    Advances S s (passPool s t).1 t (passPool s t).2 := by
  refine .quiet [] (List.append_nil _).symm quiet_nil rfl ?_ ?_ ?_ ?_
  · rw [h]
    exact nofun
  · unfold Worker.unreported
    rw [h]
    rfl
  · intro _
    rw [h]
    rfl
  · intro _
    exact Worker.progress_eq (congrArg Position.spec h).symm rfl rfl rfl rfl rfl

/-- A call begins. -/
theorem begin_advances (S : Scan π) (s : Shared π) {t : Worker π} (h : t.position = .returned) :
    Advances S s s t { t with position := .loop, row := 0, fetchUs := 0 } := by
  refine .quiet [] (List.append_nil _).symm quiet_nil rfl ?_ ?_ ?_ ?_
  · rw [h]
    exact nofun
  · unfold Worker.unreported
    rw [h]
    rfl
  · intro _
    rw [h]
    rfl
  · intro _
    exact Worker.progress_eq (congrArg Position.spec h).symm rfl rfl rfl rfl rfl

/-- **What a step does to the numbers.** -/
theorem act_advances (S : Scan π) (s : Shared π) (t : Worker π) (a : Answer) (htidy : t.Tidy) :
    Advances S s (act S s t a).1 t (act S s t a).2 := by
  have hnil : s.calls = s.calls ++ [] := (List.append_nil _).symm
  unfold act
  cases h : t.position with
  | returned => exact begin_advances S s h
  | loop => exact loopStep_advances S s h a
  | opening spec =>
      cases a.raises with
      | some msg => exact moves_advances S h [] hnil quiet_nil rfl nofun rfl nofun
      | none => exact record_advances S s h a
  | recorded spec =>
      cases a.raises with
      | some msg => exact moves_advances S h [] hnil quiet_nil rfl nofun rfl nofun
      | none => exact moves_advances S h [] hnil quiet_nil rfl nofun rfl fun _ => ⟨rfl, rfl⟩
  | checked spec =>
      cases a.raises with
      | some msg => exact moves_advances S h _ rfl (quiet_singleton ⟨trivial, rfl, rfl⟩) rfl nofun rfl nofun
      | none => exact open_advances S s h (htidy.cursor_none (congrArg Position.opens h))
  | opened =>
      exact moves_advances S h _ rfl (quiet_singleton ⟨trivial, rfl, rfl⟩) rfl nofun rfl fun _ => ⟨rfl, rfl⟩
  | openedTimed =>
      exact moves_advances S h _ rfl (quiet_singleton ⟨trivial, rfl, rfl⟩) rfl nofun rfl fun _ => ⟨rfl, rfl⟩
  | ending => exact reportRows_advances S s h
  | addBytes => exact passBytes_advances S s h
  | addPool => exact passPool_advances S s h
  | addTime =>
      obtain ⟨us, hcalls, hquiet, hqueue⟩ :=
        calls_callIf s (t.fetchUs > 0) (u := .addFirebirdTimeUs t.fetchUs) ⟨trivial, rfl, rfl⟩
      exact moves_advances S h us hcalls hquiet hqueue nofun rfl fun _ => ⟨rfl, rfl⟩
  | updateTotal =>
      exact moves_advances S h _ rfl (quiet_singleton ⟨trivial, rfl, rfl⟩) rfl nofun rfl fun _ => ⟨rfl, rfl⟩
  | raising msg =>
      exact moves_advances S h _ rfl (quiet_singleton ⟨trivial, rfl, rfl⟩) rfl (fun _ => rfl) rfl nofun
  | failed => exact .quiet [] hnil quiet_nil rfl id rfl (fun _ => rfl) (fun _ => rfl)

/-! ## A slice has one partition -/

/-- Paging is refused with more than one partition, and makes the scan serial. -/
def Scan.Serial (S : Scan π) : Prop := S.slice.isSome = true → S.partitions.length ≤ 1

/-- Something has been taken from the queue by this worker. -/
def Worker.started (t : Worker π) : Nat :=
  t.rowsSkipped + t.rowsEmitted + t.cursor.elim 0 (fun _ => 1) + t.position.spec.elim 0 fun _ => 1

theorem Worker.started_eq_zero {t : Worker π} :
    t.started = 0 ↔ t.rowsSkipped = 0 ∧ t.rowsEmitted = 0 ∧ t.cursor = none ∧ t.position.spec = none := by
  have helim {α : Type} (o : Option α) : o.elim 0 (fun _ => 1) = 0 ↔ o = none := by
    cases o <;> simp
  unfold started
  rw [← helim t.cursor, ← helim t.position.spec]
  omega

/-- A worker that has taken nothing takes the next partition, or goes on with nothing. -/
theorem act_started (S : Scan π) (s : Shared π) {t : Worker π} (a : Answer) (h : t.started = 0) :
    (act S s t a).2.started = 0 ∨ 0 < (act S s t a).1.queue.nextPartition := by
  obtain ⟨hskipped, hrows, hcursor, hspec⟩ := Worker.started_eq_zero.mp h
  have hmoves {t' : Worker π} (hs : t'.rowsSkipped = t.rowsSkipped) (hr : t'.rowsEmitted = t.rowsEmitted)
      (hc : t'.cursor = t.cursor) (hp : t'.position.spec = none) : t'.started = 0 :=
    Worker.started_eq_zero.mpr ⟨hs.trans hskipped, hr.trans hrows, hc.trans hcursor, hp⟩
  unfold act
  cases hposition : t.position with
  | opening spec => rw [hposition] at hspec; cases hspec
  | recorded spec => rw [hposition] at hspec; cases hspec
  | checked spec => rw [hposition] at hspec; cases hspec
  | loop =>
      simp only [loopStep]
      split
      · rw [hcursor]
        simp only [takePartition]
        cases htaken : nextPartition S.movedFrom s.queue with
        | none => exact .inl (hmoves rfl rfl rfl rfl)
        | some taken =>
            have hnext := (nextPartition_eq_some htaken).2.1
            refine .inr ?_
            show 0 < taken.2.nextPartition
            omega
      · exact .inl (hmoves rfl rfl rfl rfl)
  | ending =>
      have hdrain : t.drain = t := by
        unfold Worker.drain
        rw [hcursor]
      refine .inl ?_
      show Worker.started { t.drain with position := .addBytes } = 0
      rw [hdrain]
      exact hmoves rfl rfl rfl rfl
  | addBytes =>
      refine .inl ?_
      simp only [passBytes]
      split <;> exact hmoves rfl rfl rfl rfl
  | failed => exact .inl h
  | _ => exact .inl (hmoves rfl rfl rfl rfl)

theorem due_without_slice (rowWidth : Nat) (rows : List (List Nat)) (skipped emitted : Nat) :
    due none rowWidth rows skipped emitted = due none rowWidth rows 0 0 := by
  induction rows with
  | nil => rfl
  | cons blobs rows ih =>
      show (1, rowWidth + blobs.sum) + due none rowWidth rows skipped emitted =
        (1, rowWidth + blobs.sum) + due none rowWidth rows 0 0
      rw [ih]

/-! ## Any number of steps -/

/-- What the workers have together. -/
inductive Entry where
  | failures | unrecorded | unreported | emitted | rows | bytes | started

/-- What a worker contributes. -/
def Worker.entry (S : Scan π) (t : Worker π) : Entry → Nat
  | .failures => t.position.failing.toNat
  | .unrecorded => t.position.unrecorded
  | .unreported => t.unreported
  | .emitted => t.emitted
  | .rows => (t.progress S).1
  | .bytes => (t.progress S).2
  | .started => t.started

/-- What holds as long as no call has failed: every partition that was taken is recorded or about to be, and what the
    workers bring and have brought are the rows and bytes of these partitions. -/
structure Unfailed (S : Scan π) (s : Shared π) (entry : Entry → Nat) : Prop where
  records : recordsOf s.calls + entry .unrecorded = s.queue.nextPartition
  brought : S.Serial →
    (entry .rows, entry .bytes) = ((S.partitions.take s.queue.nextPartition).map fun spec => S.due spec 0 0).sum

/-- What holds in every state. -/
structure Totals (S : Scan π) (s : Shared π) (entry : Entry → Nat) : Prop where
  queue : s.queue.Inv S.partitions
  sound : ∀ u ∈ s.calls, Sound u
  reported : added rowsOf s.calls + entry .unreported = entry .emitted
  unstarted : s.queue.nextPartition = 0 → entry .started = 0
  unfailed : entry .failures = 0 → Unfailed S s entry

/-- What a partition brings does not depend on the worker that takes it. -/
theorem due_taken {S : Scan π} {s : Shared π} {entry : Entry → Nat} (h : Totals S s entry) (hserial : S.Serial)
    {spec : π} {queue : GlobalState π} (htaken : nextPartition S.movedFrom s.queue = some (spec, queue))
    {t : Worker π} (hentry : entry .started = 0 → t.started = 0) :
    S.due spec t.rowsSkipped t.rowsEmitted = S.due spec 0 0 := by
  unfold Scan.due
  cases hslice : S.slice with
  | none => exact due_without_slice _ _ _ _
  | some slice =>
      -- the only partition: nobody has skipped or emitted anything
      have hone : S.partitions.length ≤ 1 := hserial (by rw [hslice]; rfl)
      have hlt := (List.getElem?_eq_some_iff.mp (nextPartition_inv h.queue htaken).2).1
      have hfirst : s.queue.nextPartition = 0 := by omega
      obtain ⟨hskipped, hrows, -, -⟩ := Worker.started_eq_zero.mp (hentry (h.unstarted hfirst))
      rw [hskipped, hrows]

theorem Unfailed.of_advances {S : Scan π} {s s' : Shared π} {t t' : Worker π} (hadvances : Advances S s s' t t')
    (frame : Entry → Nat) (htotals : Totals S s (t.entry S + frame)) (h : Unfailed S s (t.entry S + frame))
    (hok : t'.position.failing = false) : Unfailed S s' (t'.entry S + frame) := by
  constructor
  · have hbefore : recordsOf s.calls + (t.position.unrecorded + frame .unrecorded) = s.queue.nextPartition := h.records
    have hstep := hadvances.records hok
    show recordsOf s'.calls + (t'.position.unrecorded + frame .unrecorded) = s'.queue.nextPartition
    omega
  · intro hserial
    have hbefore : t.progress S + (frame .rows, frame .bytes) =
        ((S.partitions.take s.queue.nextPartition).map fun spec => S.due spec 0 0).sum := h.brought hserial
    show t'.progress S + (frame .rows, frame .bytes) = _
    rcases hadvances.progress with ⟨hqueue, hsame⟩ | ⟨spec, htaken, hmore⟩
    · rw [hsame hok, hqueue, hbefore]
    · -- a partition more is recorded, and this worker is to bring it
      have hentry : (t.entry S + frame) .started = 0 → t.started = 0 :=
        fun hsum => Nat.eq_zero_of_add_eq_zero_right hsum
      have hspec := (nextPartition_inv htotals.queue htaken).2
      rw [hmore, due_taken htotals hserial htaken hentry, (nextPartition_eq_some htaken).2.1, List.take_add_one, hspec,
        List.map_append, List.sum_append, ← hbefore, add_right_comm]
      exact congrArg (fun p : Nat × Nat => t.progress S + (frame .rows, frame .bytes) + p) (add_zero _).symm

theorem Totals.of_advances {S : Scan π} {s s' : Shared π} {t t' : Worker π} (hadvances : Advances S s s' t t')
    (hstarted : t.started = 0 → t'.started = 0 ∨ 0 < s'.queue.nextPartition) (frame : Entry → Nat)
    (h : Totals S s (t.entry S + frame)) : Totals S s' (t'.entry S + frame) := by
  constructor
  · rcases hadvances.progress with ⟨hqueue, -⟩ | ⟨spec, htaken, -⟩
    · rw [hqueue]
      exact h.queue
    · exact (nextPartition_inv h.queue htaken).1
  · obtain ⟨us, hcalls, hus, -⟩ := hadvances.calls
    rw [hcalls]
    exact List.forall_mem_append.mpr ⟨h.sound, hus⟩
  · have hbefore : added rowsOf s.calls + ((t.unreported + frame .unreported : Nat) : Int) =
        ((t.emitted + frame .emitted : Nat) : Int) := h.reported
    have hstep := hadvances.reported
    show added rowsOf s'.calls + ((t'.unreported + frame .unreported : Nat) : Int) =
      ((t'.emitted + frame .emitted : Nat) : Int)
    omega
  · intro hnone
    have hnext : s.queue.nextPartition = 0 := by
      rcases hadvances.progress with ⟨hqueue, -⟩ | ⟨spec, htaken, -⟩
      · rw [← hqueue]
        exact hnone
      · have hmore := (nextPartition_eq_some htaken).2.1
        omega
    have hsum : t.started + frame .started = 0 := h.unstarted hnext
    have hafter := hstarted (Nat.eq_zero_of_add_eq_zero_right hsum)
    show t'.started + frame .started = 0
    omega
  · intro hfailures
    have hsum : t'.position.failing.toNat + frame .failures = 0 := hfailures
    have hok : t'.position.failing = false := Bool.toNat_eq_zero.mp (Nat.eq_zero_of_add_eq_zero_right hsum)
    have hbefore : t.position.failing = false := by
      cases hfailing : t.position.failing with
      | false => rfl
      | true => exact (hadvances.failing hfailing).symm.trans hok
    refine .of_advances hadvances frame h (h.unfailed ?_) hok
    show t.position.failing.toNat + frame .failures = 0
    rw [hbefore, Nat.eq_zero_of_add_eq_zero_left hsum]
    rfl

theorem workers_total (S : Scan π) : GuardedFrames (Worker.entry S) (workers S) Worker.Tidy (Totals S) where
  start _ := by
    funext entry
    cases entry <;> rfl
  good_start _ := ⟨rfl, rfl⟩
  good_act := act_tidy S
  act s t a frame htidy h := h.of_advances (act_advances S s t a htidy) (act_started S s a) frame
  outside _ event := nomatch event

theorem reached_total (S : Scan π) (moves : List (Move Answer Unit Empty)) :
    Totals S (reached S moves).shared (total (Worker.entry S) (reached S moves).tasks) := by
  refine (workers_total S).run (List.forall_mem_nil _) ?_ moves
  exact ⟨⟨Nat.zero_le _, fun _ _ => rfl⟩, List.forall_mem_nil _, rfl, fun _ => rfl, fun _ => ⟨rfl, fun _ => rfl⟩⟩

/-! ## The query as a whole -/

/-- The scan has completed without error: the queue is exhausted, and every worker is behind its last call. -/
structure Completed (S : Scan π) (w : World (Shared π) (Worker π)) : Prop where
  settled : Settled w
  exhausted : S.partitions.length ≤ w.shared.queue.nextPartition
  closed : ∀ t ∈ w.tasks, t.cursor = none

/-- The rows that all workers have emitted. -/
def emitted (w : World (Shared π) (Worker π)) : Nat := total Worker.emitted w.tasks

/-- The record and the log of the connection; `before` are the calls that were made before the scan. -/
def observed (before : List Update) (w : World (Shared π) (Worker π)) : ObservabilityState :=
  .after (before ++ w.shared.calls)

/-- The last query, and the newest entry of the log, have the rows and bytes of the whole scan. -/
structure QueryWide (before : List Update) (w : World (Shared π) (Worker π)) : Prop where
  rows : (observed before w).last.rowsRead = emitted w
  bytes : (observed before w).last.bytesReadEstimate = payload w
  newest : ∀ entry ∈ (observed before w).snapshotLog.head?,
    entry.rowsRead = emitted w ∧ entry.bytesReadEstimate = payload w

/-- The rows and bytes of a scan, as its partitions have them. -/
def Scan.totals (S : Scan π) : Nat × Nat := (S.partitions.map fun spec => S.due spec 0 0).sum

/-- In this step a partition is opened: the query is recorded. -/
def Opens (w : World (Shared π) (Worker π)) (move : Move Answer Unit Empty) : Prop :=
  ∃ i a t spec, move = .act i a ∧ w.tasks[i]? = some t ∧ t.position = .opening spec ∧ a.raises = none

/-- No partition is opened once rows or bytes have been reported. -/
def OpensFirst (w : World (Shared π) (Worker π)) (move : Move Answer Unit Empty) : Prop :=
  Opens w move → added rowsOf w.shared.calls = 0 ∧ added bytesOf w.shared.calls = 0

section Completed

variable {S : Scan π} {moves : List (Move Answer Unit Empty)}

/-- Every partition has been recorded, once. -/
theorem completed_records (h : Completed S (reached S moves)) :
    recordsOf (reached S moves).shared.calls = (reached S moves).shared.queue.nextPartition ∧
      (S.Serial → (emitted (reached S moves), payload (reached S moves)) = S.totals) := by
  have htotals := reached_total S moves
  have hfailures : total (Worker.entry S) (reached S moves).tasks .failures = 0 := by
    rw [total_apply]
    apply total_eq_zero
    intro t ht
    exact congrArg (fun position => position.failing.toNat) (h.settled t ht)
  have hunrecorded : total (Worker.entry S) (reached S moves).tasks .unrecorded = 0 := by
    rw [total_apply]
    apply total_eq_zero
    intro t ht
    exact congrArg Position.unrecorded (h.settled t ht)
  -- nothing is still to come
  have hprogress : ∀ t ∈ (reached S moves).tasks, t.progress S = (t.emitted, t.read) := by
    intro t ht
    have hspec : t.position.spec = none := congrArg Position.spec (h.settled t ht)
    unfold Worker.progress Worker.due
    rw [hspec, h.closed t ht]
    rfl
  obtain ⟨hrecords, hbrought⟩ := htotals.unfailed hfailures
  rw [hunrecorded] at hrecords
  refine ⟨hrecords, ?_⟩
  intro hserial
  have hsum := hbrought hserial
  rw [List.take_of_length_le h.exhausted, total_apply, total_apply] at hsum
  have hrows : total (fun t => t.entry S .rows) (reached S moves).tasks = emitted (reached S moves) :=
    congrArg List.sum (List.map_congr_left fun t ht => congrArg Prod.fst (hprogress t ht))
  have hbytes : total (fun t => t.entry S .bytes) (reached S moves).tasks = payload (reached S moves) :=
    congrArg List.sum (List.map_congr_left fun t ht => congrArg Prod.snd (hprogress t ht))
  rw [hrows, hbytes] at hsum
  exact hsum

/-- All rows have been reported. -/
theorem completed_reported (h : Completed S (reached S moves)) :
    added rowsOf (reached S moves).shared.calls = emitted (reached S moves) := by
  have hreported := (reached_total S moves).reported
  rw [total_apply, total_apply] at hreported
  have hnothing : total (fun t => t.entry S .unreported) (reached S moves).tasks = 0 := by
    apply total_eq_zero
    intro t ht
    show t.unreported = 0
    unfold Worker.unreported
    rw [h.settled t ht]
    rfl
  rw [hnothing] at hreported
  exact (add_zero _).symm.trans hreported

end Completed

/-- What is to hold of the bytes: behind a call nothing is held, between calls everything is passed, and behind the last
    one that is what the partitions have, in rows and in BLOBs. -/
structure CountsBytes (S : Scan π) (w : World (Shared π) (Worker π)) : Prop where
  behind : ∀ t ∈ w.tasks, t.position = .returned → t.bytesFetched = 0 ∧ ∀ c ∈ t.cursor, c.bytesRead = 0
  passed : Settled w → added bytesOf w.shared.calls = payload w
  pooled : Settled w → w.shared.pool = S.pool.map (· + payload w)
  whole : Completed S w → S.Serial → (emitted w, payload w) = S.totals

/-- **No byte is lost or counted twice**, for any partitions, workers, chunks and schedule, with or without a slice. -/
theorem scan_countsBytes (S : Scan π) (moves : List (Move Answer Unit Empty)) : CountsBytes S (reached S moves) := by
  refine ⟨?_, fun h => (settled_passed S moves h).1, fun h => (settled_passed S moves h).2,
    fun h => (completed_records h).2⟩
  intro t ht hposition
  obtain ⟨hcounter, hfetched⟩ := (reached_tidy S moves t ht).returned hposition
  refine ⟨hfetched, ?_⟩
  intro c hc
  unfold Worker.counter at hcounter
  rw [hc] at hcounter
  exact hcounter

/-! ## What is lost -/

theorem Sound.amounts {u : Update} (h : Sound u) : 0 ≤ rowsOf u ∧ 0 ≤ bytesOf u := by
  cases u with
  | addRows n => exact ⟨h, le_refl _⟩
  | addBytes bytes => exact ⟨le_refl _, h⟩
  | _ => exact ⟨le_refl _, le_refl _⟩

/-- A step records the query exactly if it opens a partition. -/
theorem step_calls (S : Scan π) {w : World (Shared π) (Worker π)} (htidy : ∀ t ∈ w.tasks, t.Tidy)
    (move : Move Answer Unit Empty) :
    (Opens w move ∧ ∃ u, u.records = true ∧ ((workers S).step w move).shared.calls = w.shared.calls ++ [u]) ∨
      (¬Opens w move ∧ ∃ us, ((workers S).step w move).shared.calls = w.shared.calls ++ us ∧
        ∀ u ∈ us, u.records = false) := by
  cases move with
  | start kind =>
      refine .inr ⟨?_, [], (List.append_nil _).symm, List.forall_mem_nil _⟩
      rintro ⟨i, a, t, spec, hmove, -⟩
      cases hmove
  | outside event => exact nomatch event
  | act i a =>
      rcases htask : w.tasks[i]? with _ | t
      · refine .inr ⟨?_, [], ?_, List.forall_mem_nil _⟩
        · rintro ⟨j, b, t, spec, hmove, ht, -⟩
          cases hmove
          rw [htask] at ht
          cases ht
        · rw [Program.step_act_none _ htask, List.append_nil]
      · rw [Program.step_act _ htask]
        by_cases hopens : Opens w (.act i a)
        · obtain ⟨j, b, u, spec, hmove, hu, hposition, hraises⟩ := hopens
          cases hmove
          obtain rfl : t = u := Option.some.inj (htask.symm.trans hu)
          refine .inl ⟨⟨i, a, t, spec, rfl, htask, hposition, hraises⟩,
            .recordQuery (captured S spec a) a.logSize a.now, rfl, ?_⟩
          show (act S w.shared t a).1.calls = _
          unfold act
          rw [hposition, hraises]
          rfl
        · -- the other acts, and an opening that raises, record no query
          obtain ⟨us, hcalls, -, hsilent⟩ :=
            (act_advances S w.shared t a (htidy t (List.mem_of_getElem? htask))).calls
          refine .inr ⟨hopens, us, hcalls, hsilent ?_⟩
          cases hposition : t.position with
          | opening spec =>
              refine .inr ?_
              unfold act
              cases hraises : a.raises with
              | none => exact absurd ⟨i, a, t, spec, rfl, htask, hposition, hraises⟩ hopens
              | some msg =>
                  rw [hposition]
                  rfl
          | _ => exact .inl rfl

theorem tally_append_of_silent (amount : Update → Int) {calls us : List Update} (h : ∀ u ∈ us, u.records = false) :
    (tally amount (calls ++ us)).lost = (tally amount calls).lost := by
  induction us using List.reverseRecOn with
  | nil => rw [List.append_nil]
  | append_singleton us u ih =>
      obtain ⟨hus, hu⟩ := List.forall_mem_append.mp h
      rw [← List.append_assoc, tally_concat, Tally.step, List.forall_mem_singleton.mp hu]
      exact ih hus

/-- **Nothing is lost exactly if no partition is opened once something has been reported.** -/
theorem lost_eq_zero_iff (S : Scan π) (moves : List (Move Answer Unit Empty)) :
    (tally rowsOf (reached S moves).shared.calls).lost = 0 ∧ (tally bytesOf (reached S moves).shared.calls).lost = 0 ↔
      Meets (workers S).step OpensFirst (begun S) moves := by
  induction moves using List.reverseRecOn with
  | nil => exact iff_of_true ⟨rfl, rfl⟩ trivial
  | append_singleton moves move ih =>
      have hreached : reached S (moves ++ [move]) = (workers S).step (reached S moves) move := run_concat _ _ _ _
      have hsound := (reached_total S moves).sound
      rw [meets_concat, ← ih, hreached]
      rcases step_calls S (reached_tidy S moves) move with ⟨hopens, u, hu, hcalls⟩ | ⟨hopens, us, hcalls, hus⟩
      · -- the record is replaced: what was added since the last one is lost now
        obtain ⟨hsinceRows, hlostRows, hrows⟩ := tally_spec counts_rows.zero fun u hu => (hsound u hu).amounts.1
        obtain ⟨hsinceBytes, hlostBytes, hbytes⟩ := tally_spec counts_bytes.zero fun u hu => (hsound u hu).amounts.2
        have hallowed : OpensFirst (reached S moves) move ↔
            added rowsOf (reached S moves).shared.calls = 0 ∧ added bytesOf (reached S moves).shared.calls = 0 :=
          ⟨fun h => h hopens, fun h _ => h⟩
        rw [hcalls, tally_concat, tally_concat, Tally.step, Tally.step, hu, if_pos rfl, if_pos rfl]
        generalize tally rowsOf (reached S moves).shared.calls = rows at *
        generalize tally bytesOf (reached S moves).shared.calls = bytes at *
        show rows.lost + rows.since = 0 ∧ bytes.lost + bytes.since = 0 ↔
          (rows.lost = 0 ∧ bytes.lost = 0) ∧ OpensFirst (reached S moves) move
        rw [hallowed]
        omega
      · rw [hcalls, tally_append_of_silent rowsOf hus, tally_append_of_silent bytesOf hus]
        exact (and_iff_left fun h => absurd h hopens).symm

/-- The log has the last query at its end. -/
theorem observed_newest (before : List Update) (w : World (Shared π) (Worker π)) :
    ∀ entry ∈ (observed before w).snapshotLog.head?, entry = (observed before w).last := by
  intro entry hentry
  unfold ObservabilityState.snapshotLog at hentry
  rw [List.head?_reverse] at hentry
  exact (after_coherent (before ++ w.shared.calls)).newest entry hentry

/-- **The record is that of the whole query exactly if no partition is opened once rows or bytes have been
    reported.** What is to be reported depends on the scan alone. -/
theorem queryWide_iff (S : Scan π) (before : List Update) (moves : List (Move Answer Unit Empty))
    (hpartitions : S.partitions ≠ []) (hdone : Completed S (reached S moves)) :
    (QueryWide before (reached S moves) ↔ Meets (workers S).step OpensFirst (begun S) moves) ∧
      (S.Serial → (emitted (reached S moves), payload (reached S moves)) = S.totals) := by
  obtain ⟨hrecords, htotals⟩ := completed_records hdone
  refine ⟨?_, htotals⟩
  have hsound := (reached_total S moves).sound
  have hrecord : ∃ u ∈ (reached S moves).shared.calls, u.records = true := by
    apply List.countP_pos_iff.mp
    have hpos := List.length_pos_of_ne_nil hpartitions
    have hexhausted := hdone.exhausted
    unfold recordsOf at hrecords
    omega
  have hempty : ∀ rec logSize now, Update.recordQuery rec logSize now ∈ (reached S moves).shared.calls →
      rec.rowsRead = 0 ∧ rec.bytesReadEstimate = 0 := fun rec logSize now h => hsound _ h
  have hrows := last_eq_since counts_rows before hrecord fun rec logSize now h => (hempty rec logSize now h).1
  have hbytes := last_eq_since counts_bytes before hrecord fun rec logSize now h => (hempty rec logSize now h).2
  obtain ⟨-, -, hrowsSum⟩ := tally_spec counts_rows.zero fun u hu => (hsound u hu).amounts.1
  obtain ⟨-, -, hbytesSum⟩ := tally_spec counts_bytes.zero fun u hu => (hsound u hu).amounts.2
  rw [completed_reported hdone] at hrowsSum
  rw [(settled_passed S moves hdone.settled).1] at hbytesSum
  -- what the last record holds and what was lost add up to the whole
  rw [← lost_eq_zero_iff]
  constructor
  · intro h
    have hlastRows := h.rows
    have hlastBytes := h.bytes
    unfold observed at hlastRows hlastBytes
    omega
  · rintro ⟨hlostRows, hlostBytes⟩
    have hlastRows : (observed before (reached S moves)).last.rowsRead = emitted (reached S moves) := by
      unfold observed
      omega
    have hlastBytes : (observed before (reached S moves)).last.bytesReadEstimate = payload (reached S moves) := by
      unfold observed
      omega
    refine ⟨hlastRows, hlastBytes, ?_⟩
    intro entry hentry
    rw [observed_newest before _ entry hentry]
    exact ⟨hlastRows, hlastBytes⟩

/-- Two partitions with two rows of eight bytes each, in chunks of `target` rows. -/
def twoPartitions (target : Nat) : Scan Unit where
  partitions := [(), ()]
  movedFrom := ()
  rowWidth _ := 8
  rows _ := [[], []]
  record _ := QueryTelemetry.default.toFirebirdQueryTelemetry
  slice := none
  target := target
  pool := none

/-- A single worker that takes so many steps. -/
def oneWorker (steps : Nat) : List (Move Answer Unit Empty) := .start () :: List.replicate steps (.act 0 {})

/-- One call gets to the last partition. -/
theorem queryWide_one_call :
    Completed (twoPartitions 10) (reached (twoPartitions 10) (oneWorker 31)) ∧
      (QueryWide [] (reached (twoPartitions 10) (oneWorker 31)) ↔
        Meets (workers (twoPartitions 10)).step OpensFirst (begun (twoPartitions 10)) (oneWorker 31)) := by
  have hdone : Completed (twoPartitions 10) (reached (twoPartitions 10) (oneWorker 31)) :=
    ⟨List.forall_mem_singleton.mpr rfl, by decide, List.forall_mem_singleton.mpr rfl⟩
  exact ⟨hdone, (queryWide_iff (twoPartitions 10) [] (oneWorker 31) (by decide) hdone).1⟩

/-- **The first call returns a full chunk, and its rows are lost**: two rows are reported of four. -/
theorem queryWide_two_calls :
    ¬∀ (S : Scan Unit) (before : List Update) (moves : List (Move Answer Unit Empty)),
      S.partitions ≠ [] → Completed S (reached S moves) → QueryWide before (reached S moves) := by
  intro h
  have hdone : Completed (twoPartitions 2) (reached (twoPartitions 2) (oneWorker 38)) :=
    ⟨List.forall_mem_singleton.mpr rfl, by decide, List.forall_mem_singleton.mpr rfl⟩
  have hrows := (h (twoPartitions 2) [] (oneWorker 38) (by decide) hdone).rows
  have hreported : (observed [] (reached (twoPartitions 2) (oneWorker 38))).last.rowsRead = 2 := rfl
  have hemitted : emitted (reached (twoPartitions 2) (oneWorker 38)) = 4 := rfl
  rw [hreported, hemitted] at hrows
  cases hrows

end ScanBytes
end FirebirdScan
