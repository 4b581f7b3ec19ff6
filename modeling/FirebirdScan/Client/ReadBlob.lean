import FirebirdScan.Types
import Mathlib.Algebra.Group.Nat.Defs
import Mathlib.Data.List.Infix

/-!
# `Client.ReadBlob` — the segments of a BLOB (`FirebirdStatement::ReadBlob`)

`isc_get_segment` says with its return code whether a segment is complete, cut off at the size of the buffer, missing
since the BLOB is at its end, or not to be had. On an error the source closes the BLOB and then asks the status vector
what happened. By then the vector holds the outcome of the close: the error is raised if the close failed with the very
same one (`readBlob_iff`), and otherwise another one is, or the loop goes on with a BLOB that is closed.
-/

namespace FirebirdScan

/-- `isc_segment` -/
def iscSegment : Int := 335544366

/-- `isc_segstr_eof` -/
def iscSegstrEof : Int := 335544367

/-- A call of `isc_get_segment`: what it returns, which is also the code that it leaves in the status vector, and the
    `seg_len` bytes that stand in the buffer behind it. -/
structure SegmentCall where
  rc : Int
  segment : Bytes
  fits : segment.length ≤ 8192

/-- What the server does: with `isc_open_blob2`, with the calls for segments, and with each call of
    `isc_close_blob`. A code is what is left in the status vector, 0 for success. -/
structure BlobServer where
  opened : Int
  calls : List SegmentCall
  closed : Nat → Int

/-- How `ReadBlob` ends. It is `pending` as long as the server has not answered. -/
inductive BlobOutcome where
  | returned (out : Bytes)
  | raised (code : Int)
  | pending
deriving DecidableEq

/-- A run of `ReadBlob`: how it ends, what it adds to `bytes_read_`, and its calls. -/
structure BlobRun where
  outcome : BlobOutcome
  bytesRead : Int
  reads : Nat
  closes : Nat
deriving DecidableEq

/-- The loop, after some calls. -/
def readSegments (closed : Nat → Int) : List SegmentCall → Bytes → Nat → Nat → BlobRun
  | [], _, reads, closes => ⟨.pending, 0, reads, closes⟩
  | call :: calls, out, reads, closes =>
      if call.rc = iscSegstrEof then ⟨.returned out, out.length, reads + 1, closes + 1⟩
      else if call.rc ≠ 0 ∧ call.rc ≠ iscSegment then
        -- `Check` sees the status of the close, and lets a success pass
        if closed closes ≠ 0 then ⟨.raised (closed closes), 0, reads + 1, closes + 1⟩
        else readSegments closed calls (out ++ call.segment) (reads + 1) (closes + 1)
      else readSegments closed calls (out ++ call.segment) (reads + 1) closes

/-- `ReadBlob`. -/
def readBlob (server : BlobServer) : BlobRun :=
  if server.opened ≠ 0 then ⟨.raised server.opened, 0, 0, 0⟩ else readSegments server.closed server.calls [] 0 0

namespace SegmentCall

/-- A segment, or as much of it as the buffer holds. -/
def Delivers (call : SegmentCall) : Prop := call.rc = 0 ∨ call.rc = iscSegment

/-- Neither a segment nor the end. -/
def Fails (call : SegmentCall) : Prop := call.rc ≠ 0 ∧ call.rc ≠ iscSegment ∧ call.rc ≠ iscSegstrEof

theorem not_eof_of_delivers {call : SegmentCall} (h : call.Delivers) : call.rc ≠ iscSegstrEof := by
  rcases h with h | h <;> rw [h] <;> decide

end SegmentCall

/-- The bytes that calls have delivered. -/
def delivered (calls : List SegmentCall) : Bytes := calls.flatMap SegmentCall.segment

/-! ## The loop -/

/-- Segments are appended. -/
theorem readSegments_delivers (closed : Nat → Int) {front : List SegmentCall} (h : ∀ call ∈ front, call.Delivers)
    (calls : List SegmentCall) (out : Bytes) (reads closes : Nat) :
    readSegments closed (front ++ calls) out reads closes =
      readSegments closed calls (out ++ delivered front) (reads + front.length) closes := by
  induction front generalizing out reads with
  | nil =>
      rw [delivered, List.flatMap_nil, List.append_nil]
      rfl
  | cons call front ih =>
      obtain ⟨hcall, hfront⟩ := List.forall_mem_cons.mp h
      have hok : ¬ (call.rc ≠ 0 ∧ call.rc ≠ iscSegment) := fun hne => hcall.elim hne.1 hne.2
      rw [List.cons_append, readSegments, if_neg (SegmentCall.not_eof_of_delivers hcall), if_neg hok, ih hfront,
        delivered, delivered, List.flatMap_cons, List.append_assoc, List.length_cons]
      congr 1
      omega

/-- At the end of the BLOB. -/
theorem readSegments_eof {closed : Nat → Int} {call : SegmentCall} (h : call.rc = iscSegstrEof)
    (calls : List SegmentCall) (out : Bytes) (reads closes : Nat) :
    readSegments closed (call :: calls) out reads closes =
      ⟨.returned out, out.length, reads + 1, closes + 1⟩ := by
  rw [readSegments, if_pos h]

/-- At an error, as the close behind it ends. -/
theorem readSegments_fails {closed : Nat → Int} {call : SegmentCall} (h : call.Fails) (calls : List SegmentCall)
    (out : Bytes) (reads closes : Nat) :
    readSegments closed (call :: calls) out reads closes =
      if closed closes ≠ 0 then ⟨.raised (closed closes), 0, reads + 1, closes + 1⟩
      else readSegments closed calls (out ++ call.segment) (reads + 1) (closes + 1) := by
  rw [readSegments, if_neg h.2.2, if_pos ⟨h.1, h.2.1⟩]

/-- The loop never takes back a call for a segment, and raises after one only. -/
theorem readSegments_reads (closed : Nat → Int) (calls : List SegmentCall) (out : Bytes) (reads closes : Nat) :
    reads ≤ (readSegments closed calls out reads closes).reads ∧
      ∀ code, (readSegments closed calls out reads closes).outcome = .raised code →
        reads < (readSegments closed calls out reads closes).reads := by
  induction calls generalizing out reads closes with
  | nil => exact ⟨le_rfl, nofun⟩
  | cons call calls ih =>
      rw [readSegments]
      split_ifs
      · exact ⟨Nat.le_succ _, fun _ _ => Nat.lt_succ_self _⟩
      · exact ⟨Nat.le_succ _, fun _ _ => Nat.lt_succ_self _⟩
      · have h := ih (out ++ call.segment) (reads + 1) (closes + 1)
        exact ⟨by omega, fun _ _ => by omega⟩
      · have h := ih (out ++ call.segment) (reads + 1) closes
        exact ⟨by omega, fun _ _ => by omega⟩

/-! ## The whole BLOB, or the error -/

/-- What `ReadBlob` is to do: raise the error of the open; at the end of the BLOB, return the bytes delivered and count
    them; at an error before that, raise it, count nothing and read no further. The BLOB is closed once. -/
structure WholeOrError (server : BlobServer) (run : BlobRun) : Prop where
  refused : server.opened ≠ 0 → run = ⟨.raised server.opened, 0, 0, 0⟩
  whole : server.opened = 0 → ∀ front call back, server.calls = front ++ call :: back →
    (∀ c ∈ front, c.Delivers) → call.rc = iscSegstrEof →
      run = ⟨.returned (delivered front), (delivered front).length, front.length + 1, 1⟩
  error : server.opened = 0 → ∀ front call back, server.calls = front ++ call :: back →
    (∀ c ∈ front, c.Delivers) → call.Fails → run = ⟨.raised call.rc, 0, front.length + 1, 1⟩

/-- Where an error is met first, the close behind it fails with the same one. -/
def CloseFailsAlike (server : BlobServer) : Prop :=
  server.opened = 0 → ∀ front call back, server.calls = front ++ call :: back → (∀ c ∈ front, c.Delivers) →
    call.Fails → server.closed 0 = call.rc

/-- **`ReadBlob` returns the whole BLOB or raises the error** exactly where no error is met before the end, or the close
    behind it fails with the same one. -/
theorem readBlob_iff (server : BlobServer) : WholeOrError server (readBlob server) ↔ CloseFailsAlike server := by
  by_cases hopened : server.opened = 0
  · have hrun : readBlob server = readSegments server.closed server.calls [] 0 0 := if_neg (not_not.mpr hopened)
    rw [hrun]
    constructor
    · intro h _ front call back hcalls hfront hcall
      have herror := h.error hopened front call back hcalls hfront hcall
      rw [hcalls, readSegments_delivers server.closed hfront, readSegments_fails hcall] at herror
      split_ifs at herror with hclose
      · have hraised := congrArg BlobRun.outcome herror
        exact BlobOutcome.raised.inj hraised
      · -- the loop has gone on
        have hlater := (readSegments_reads server.closed back (([] ++ delivered front) ++ call.segment)
          (0 + front.length + 1) (0 + 1)).2 call.rc (by rw [herror])
        rw [herror] at hlater
        simp only at hlater
        omega
    · intro h
      refine ⟨fun hne => absurd hopened hne, ?_, ?_⟩
      · intro _ front call back hcalls hfront hcall
        rw [hcalls, readSegments_delivers server.closed hfront, readSegments_eof hcall, List.nil_append, Nat.zero_add,
          Nat.zero_add]
      · intro _ front call back hcalls hfront hcall
        have hclose := h hopened front call back hcalls hfront hcall
        have hne : server.closed 0 ≠ 0 := hclose ▸ hcall.1
        rw [hcalls, readSegments_delivers server.closed hfront, readSegments_fails hcall, if_pos hne, hclose,
          Nat.zero_add, Nat.zero_add]
  · have hrun : readBlob server = ⟨.raised server.opened, 0, 0, 0⟩ := if_pos hopened
    rw [hrun]
    constructor
    · intro _ hzero
      exact absurd hzero hopened
    · intro _
      exact ⟨fun _ => rfl, fun hzero => absurd hzero hopened, fun hzero => absurd hzero hopened⟩

/-- The connection is lost after a segment, and the close succeeds. The next call finds no BLOB (335544328), nor does
    the close behind that, and this is what is raised. -/
theorem readBlob_lost : ¬ ∀ server, WholeOrError server (readBlob server) := by
  intro h
  have herror := (h {
    opened := 0
    calls := [⟨0, utf8 "Dear ", by decide⟩, ⟨335544721, utf8 "Dear ", by decide⟩, ⟨335544328, utf8 "Dear ", by decide⟩]
    closed := fun n => if n = 0 then 0 else 335544328 }).error rfl [⟨0, utf8 "Dear ", by decide⟩]
      ⟨335544721, utf8 "Dear ", by decide⟩ [⟨335544328, utf8 "Dear ", by decide⟩] rfl
      (List.forall_mem_singleton.mpr (.inl rfl)) ⟨by decide, by decide, by decide⟩
  exact absurd herror (by decide)

end FirebirdScan
