import FirebirdScan.Scanner.OpenCursor

/-!
# `Scanner.Paging` — `row_limit` and `row_offset`

The slice is taken in one of two places. With a safe order the statement ends in `ROWS`, and the server counts
rows from one; otherwise `FirebirdScanFunction` skips and counts the rows that it fetches, with counters that
outlive a call, and drops its cursor when it has enough.

`drain_eq` says what one cursor adds to a chunk, `scanFunction_eq` what one call returns, and `scanCalls_eq`
what any number of calls do: they return the rows of the slice in order, a chunk at a time.
-/

namespace FirebirdScan

open SqlText SqlText.Select

/-! ## The bind -/

/-- The paging arguments, as `FirebirdScanBind` accepts them. -/
structure PagingArguments where
  partitionsOverride : PartitionsOverride
  limitOverride : Option UInt64
  offsetOverride : Option UInt64

/-- The two values that the bind itself sets. -/
def PartitionsOverride.auto : PartitionsOverride := ⟨0, by decide⟩

def PartitionsOverride.serial : PartitionsOverride := ⟨1, by decide⟩

theorem toNat_int64 (p : Int64) : p.toInt.toNat < 2 ^ 63 := by
  have hlt := p.toInt_lt
  omega

/-- `partitions`, which is `0` when it is not given. -/
def bindPartitions : Option Int64 → Except String PartitionsOverride
  | none => .ok .auto
  | some p =>
      if p < 0 then .error "partitions must be >= 0 (0 = auto)"
      else .ok ⟨p.toInt.toNat, toNat_int64 p⟩

def bindRowLimit : Option Int64 → Except String (Option UInt64)
  | none => .ok none
  | some l => if l ≤ 0 then .error "row_limit must be > 0" else .ok (some l.toUInt64)

def bindRowOffset : Option Int64 → Except String (Option UInt64)
  | none => .ok none
  | some o => if o < 0 then .error "row_offset must be >= 0" else .ok (some o.toUInt64)

/-- The guard in front of the sum that `ROWS` needs. -/
def sliceOverflows (limitOverride offsetOverride : Option UInt64) : Bool :=
  limitOverride.any fun limit => offsetOverride.any fun offset => offset > 18446744073709551615 - limit

/-- `FirebirdScanBind`, as far as it decides on paging. -/
def bindPaging (partitions rowLimit rowOffset : Option Int64) : Except String PagingArguments := do
  let partitionsOverride ← bindPartitions partitions
  let limitOverride ← bindRowLimit rowLimit
  let offsetOverride ← bindRowOffset rowOffset
  let paging := limitOverride.isSome || offsetOverride.isSome
  if offsetOverride.isSome && !limitOverride.isSome then
    .error ("firebird_scan: row_offset requires row_limit. Firebird's ROWS clause is bound-pair (`ROWS m TO n`), " ++
      "and pure-offset paging is expensive and surprising. Pass `row_limit=N` alongside `row_offset=M` to express " ++
      "the slice as [M+1, M+N].")
  else if paging && partitionsOverride.value > 1 then
    .error ("firebird_scan: row_limit / row_offset are global slice semantics; combining them with partitions > 1 " ++
      "would replicate the slice inside each partition (e.g. row_limit=100 + partitions=4 fetches 400 rows, not " ++
      "100). Drop the partitions= argument (the scan will run serial automatically) or set partitions=1 explicitly.")
  else if sliceOverflows limitOverride offsetOverride then
    .error ("firebird_scan: row_offset + row_limit overflow — their sum exceeds the maximum representable value " ++
      "(18446744073709551615). Tighten one or the other.")
  else
    -- paging forces a serial scan
    .ok { partitionsOverride := if paging then .serial else partitionsOverride, limitOverride, offsetOverride }

/-- The bind data with the paging arguments. -/
def ScanBindData.paged (bind : ScanBindData) (paging : PagingArguments) : ScanBindData :=
  { bind with limitOverride := paging.limitOverride, offsetOverride := paging.offsetOverride }

/-! ## The server -/

/-- The number that a word of digits stands for. -/
def numeral : Lexeme → Option Nat
  | .word s =>
      if s.all fun b => 0x30 ≤ b && b ≤ 0x39 then some (Nat.ofDigitChars 10 (s.map fun b => Char.ofNat b.toNat) 0)
      else none
  | _ => none

/-- A server: the rows of a statement without `ROWS`, in the order in which it delivers them; `none` is a
    statement that it refuses. -/
structure RowServer (ρ : Type) where
  rows : List Lexeme → List Value → Option (List ρ)

namespace RowServer

variable {ρ : Type} (S : RowServer ρ)

/-- A statement, its lexemes in reverse: `ROWS n` takes the first `n` rows, `ROWS m TO n` those from the
    `m`-th to the `n`-th. -/
def answerReversed (params : List Value) (ts : List Lexeme) : Option (List ρ) :=
  match ts with
  | last :: t :: rest =>
      match numeral last with
      | none => S.rows ts.reverse params
      | some n =>
          if t = keyword "ROWS" then (S.rows rest.reverse params).map fun rows => rows.take n
          else
            match rest with
            | first :: r :: rest =>
                if t = keyword "TO" ∧ r = keyword "ROWS" then do
                  let m ← numeral first
                  let rows ← S.rows rest.reverse params
                  if m = 0 then none else some ((rows.drop (m - 1)).take (n + 1 - m))
                else S.rows ts.reverse params
            | _ => S.rows ts.reverse params
  | _ => S.rows ts.reverse params

/-- The rows of a statement. -/
def answer (sql : Bytes) (params : List Value) : Option (List ρ) :=
  (lex sql).bind fun ts => S.answerReversed params ts.reverse

/-- The server delivers the rows for a statement without `ROWS`. -/
def Delivers (sql : Bytes) (params : List Value) (R : List ρ) : Prop :=
  ∃ ts, lex sql = some ts ∧ S.rows ts params = some R

end RowServer

section Server

theorem digit_range {c : Char} (hc : c.isDigit = true) : 48 ≤ c.toNat ∧ c.toNat ≤ 57 := by
  simp only [Char.isDigit, Bool.and_eq_true, decide_eq_true_eq] at hc
  exact hc

theorem utf8_digits {cs : List Char} (hcs : ∀ c ∈ cs, c.isDigit = true) :
    Utf8.encode (cs.map Char.toNat) = cs.map fun c => UInt8.ofNat c.toNat := by
  induction cs with
  | nil => rfl
  | cons c cs ih =>
      obtain ⟨hc, hcs⟩ := List.forall_mem_cons.mp hcs
      have hscalar : Utf8.encodeScalar c.toNat = [UInt8.ofNat c.toNat] := by
        have hrange := digit_range hc
        unfold Utf8.encodeScalar
        rw [if_pos (by omega)]
      rw [List.map_cons, List.map_cons, Utf8.encode_cons, hscalar, ih hcs]
      rfl

/-- A printed number is read back. -/
theorem numeral_digits (n : Nat) : numeral (.word (utf8 (toString n))) = some n := by
  have hdigits : ∀ c ∈ Nat.toDigits 10 n, c.isDigit = true :=
    fun c hc => Nat.isDigit_of_mem_toDigits (by decide) (by decide) hc
  have hbyte {c : Char} (hc : c.isDigit = true) : (UInt8.ofNat c.toNat).toNat = c.toNat := by
    have hrange := digit_range hc
    rw [UInt8.toNat_ofNat']
    omega
  rw [utf8, Utf8.ofString, Nat.toString_eq_repr, Nat.toList_repr, utf8_digits hdigits]
  have hall : ((Nat.toDigits 10 n).map fun c => UInt8.ofNat c.toNat).all (fun b => 0x30 ≤ b && b ≤ 0x39) = true := by
    refine List.all_eq_true.mpr fun b hb => ?_
    obtain ⟨c, hc, rfl⟩ := List.mem_map.mp hb
    rw [Bool.and_eq_true, decide_eq_true_eq, decide_eq_true_eq, UInt8.le_iff_toNat_le, UInt8.le_iff_toNat_le,
      hbyte (hdigits c hc)]
    exact digit_range (hdigits c hc)
  have hback : ((Nat.toDigits 10 n).map fun c => UInt8.ofNat c.toNat).map (fun b => Char.ofNat b.toNat) =
      Nat.toDigits 10 n := by
    rw [List.map_map]
    refine (List.map_congr_left fun c hc => ?_).trans (List.map_id _)
    rw [Function.comp_apply, hbyte (hdigits c hc), Char.ofNat_toNat]
    rfl
  refine (if_pos hall).trans ?_
  rw [hback, Nat.ofDigitChars_ten_toDigits]

variable {ρ : Type} {S : RowServer ρ} {sql : Bytes} {params : List Value} {R : List ρ}

/-- `ROWS n`. -/
theorem answer_rows (h : S.Delivers sql params R) (n : UInt64) :
    S.answer (sql ++ (utf8 " ROWS " ++ idxText n)) params = some (R.take n.toNat) := by
  obtain ⟨ts, hts, hrows⟩ := h
  have hlex : lex (sql ++ (utf8 " ROWS " ++ idxText n)) = some (ts ++ [keyword "ROWS", .word (idxText n)]) :=
    lex_append hts (rows_glue.append (idxText_fragment n)).lexes (rows_glue.apart.front (by decide) _)
  have hnumeral : numeral (.word (idxText n)) = some n.toNat := numeral_digits n.toNat
  unfold RowServer.answer
  rw [hlex, Option.bind_some, List.reverse_append]
  show S.answerReversed params (.word (idxText n) :: keyword "ROWS" :: ts.reverse) = _
  unfold RowServer.answerReversed
  simp only [hnumeral, if_pos, List.reverse_reverse, hrows, Option.map_some]

/-- `ROWS m TO n`. -/
theorem answer_rowsTo (h : S.Delivers sql params R) {m : UInt64} (hm : 0 < m.toNat) (n : UInt64) :
    S.answer (sql ++ (utf8 " ROWS " ++ idxText m ++ utf8 " TO " ++ idxText n)) params =
      some ((R.drop (m.toNat - 1)).take (n.toNat + 1 - m.toNat)) := by
  obtain ⟨ts, hts, hrows⟩ := h
  have htail := rows_glue.append ((idxText_fragment m).between to_glue (by decide) (idxText_fragment n))
  have hlex : lex (sql ++ (utf8 " ROWS " ++ (idxText m ++ (utf8 " TO " ++ idxText n)))) =
      some (ts ++ [keyword "ROWS", .word (idxText m), keyword "TO", .word (idxText n)]) :=
    lex_append hts htail.lexes (rows_glue.apart.front (by decide) _)
  have hfirst : numeral (.word (idxText m)) = some m.toNat := numeral_digits m.toNat
  have hlast : numeral (.word (idxText n)) = some n.toNat := numeral_digits n.toNat
  have hne : ¬keyword "TO" = keyword "ROWS" := by decide
  simp only [List.append_assoc] at hlex ⊢
  unfold RowServer.answer
  rw [hlex, Option.bind_some, List.reverse_append]
  show S.answerReversed params
    (.word (idxText n) :: keyword "TO" :: .word (idxText m) :: keyword "ROWS" :: ts.reverse) = _
  unfold RowServer.answerReversed
  simp only [hlast, hne, if_false, and_self, if_true, hfirst, List.reverse_reverse, hrows, Option.bind_eq_bind,
    Option.bind_some]
  rw [if_neg (Nat.ne_of_gt hm)]

/-- A statement whose last lexeme is no number. -/
theorem answer_plain {ts : List Lexeme} {last : Lexeme} (hlex : lex sql = some (ts ++ [last]))
    (hlast : numeral last = none) (h : S.Delivers sql params R) : S.answer sql params = some R := by
  obtain ⟨ts', hts', hrows⟩ := h
  obtain rfl := Option.some.inj (hts'.symm.trans hlex)
  unfold RowServer.answer
  rw [hlex, Option.bind_some, List.reverse_append]
  show S.answerReversed params (last :: ts.reverse) = _
  unfold RowServer.answerReversed
  cases hreverse : ts.reverse with
  | nil =>
      show S.rows [last] params = _
      rw [← hrows, List.reverse_eq_nil_iff.mp hreverse]
      rfl
  | cons t rest =>
      show (match numeral last with | none => _ | some n => _) = _
      rw [hlast, ← hreverse]
      show S.rows (last :: ts.reverse).reverse params = _
      rw [List.reverse_cons, List.reverse_reverse, hrows]

end Server

/-! ## The scan -/

namespace Paging

variable {ρ : Type}

/-- `FirebirdLocalState`, with the counters of the local slice. The slice itself is `needs_local_slice`,
    `slice_limit` and `slice_offset`. -/
structure LocalState (ρ : Type) where
  cursor : Option (List ρ) := none
  localSlice : Option LocalSlice := none
  rowsSkipped : Nat := 0
  rowsEmitted : Nat := 0

/-- How the loop leaves a cursor: the call returns, or it goes on with the next partition. -/
inductive Exit where
  | return | next
deriving DecidableEq

/-- The loop of `FirebirdScanFunction` on the rows of one cursor. -/
def drain (target : Nat) : List ρ → LocalState ρ → List ρ → Exit × LocalState ρ × List ρ
  | [], l, chunk =>
      if chunk.length < target then (.next, { l with cursor := none }, chunk)
      else (.return, { l with cursor := some [] }, chunk)
  | row :: rows, l, chunk =>
      if chunk.length < target then
        match l.localSlice with
        | none => drain target rows l (chunk ++ [row])
        | some slice =>
            if l.rowsSkipped < slice.offset.toNat then
              drain target rows { l with rowsSkipped := l.rowsSkipped + 1 } chunk
            -- the row is dropped with its cursor
            else if l.rowsEmitted ≥ slice.limit.toNat then (.return, { l with cursor := none }, chunk)
            else drain target rows { l with rowsEmitted := l.rowsEmitted + 1 } (chunk ++ [row])
      else (.return, { l with cursor := some (row :: rows) }, chunk)

/-- The partitions that are left in the queue, and the one worker of a serial scan. -/
structure ScanState (ρ : Type) where
  queue : List PartitionSpec
  localState : LocalState ρ := {}

section Scan

variable (openCursor : PartitionSpec → Option (List ρ)) (localSlice : Option LocalSlice) (target : Nat)

/-- The loop without a cursor: `OpenNextPartitionCursor`, which leaves the slice alone when the queue is
    exhausted. -/
def nextCursors : List PartitionSpec → LocalState ρ → List ρ → Option (List ρ × ScanState ρ)
  | [], l, chunk => some (chunk, { queue := [], localState := l })
  | spec :: queue, l, chunk => do
      let rows ← openCursor spec
      match drain target rows { l with localSlice } chunk with
      | (.return, l, chunk) => some (chunk, { queue, localState := l })
      | (.next, l, chunk) => nextCursors queue l chunk

/-- `FirebirdScanFunction`: the chunk that a call returns. -/
def scanFunction (st : ScanState ρ) : Option (List ρ × ScanState ρ) :=
  match st.localState.cursor with
  | none => nextCursors openCursor localSlice target st.queue st.localState []
  | some rows =>
      match drain target rows st.localState [] with
      | (.return, l, chunk) => some (chunk, { st with localState := l })
      | (.next, l, chunk) => nextCursors openCursor localSlice target st.queue l chunk

/-- The chunks of any number of calls. -/
def scanCalls : Nat → ScanState ρ → Option (List (List ρ))
  | 0, _ => some []
  | calls + 1, st => do
      let (chunk, st) ← scanFunction openCursor localSlice target st
      let chunks ← scanCalls calls st
      some (chunk :: chunks)

end Scan

end Paging

namespace ScanBindData

variable {ρ : Type} (bind : ScanBindData)

/-- The cursor of a partition. -/
def openCursor (S : RowServer ρ) (api : DuckdbApi) (columnIds : List Nat) (filters : List (Nat × TableFilter))
    (spec : PartitionSpec) : Option (List ρ) :=
  S.answer (bind.partitionQuery api columnIds filters spec).sql (bind.partitionQuery api columnIds filters spec).params

/-- The chunks of a scan over the partitions. -/
def scan (S : RowServer ρ) (api : DuckdbApi) (columnIds : List Nat) (filters : List (Nat × TableFilter)) (target : Nat)
    (partitions : List PartitionSpec) (calls : Nat) : Option (List (List ρ)) :=
  Paging.scanCalls (bind.openCursor S api columnIds filters) bind.pagination.localSlice target calls
    { queue := partitions }

/-- The statement of a partition without its `ROWS`: it has the order of the rows, if one is safe. -/
def unslicedSql (api : DuckdbApi) (columnIds : List Nat) (filters : List (Nat × TableFilter)) (spec : PartitionSpec) :
    Bytes :=
  (build api { bind.buildArgs columnIds spec with limit := none } filters).sql ++
    if bind.pagination.limitToPush.isSome then utf8 " ORDER BY " ++ bind.pagination.orderBy else []

end ScanBindData

/-! ## The rows that a worker still has to return -/

namespace Paging

variable {ρ : Type} {openCursor : PartitionSpec → Option (List ρ)} {localSlice : Option LocalSlice} {target : Nat}

/-- What is left of the rows of a cursor, for the slice and the counters. -/
def LocalState.remaining (l : LocalState ρ) (rows : List ρ) : List ρ :=
  match l.localSlice with
  | none => rows
  | some slice => (rows.drop (slice.offset.toNat - l.rowsSkipped)).take (slice.limit.toNat - l.rowsEmitted)

def LocalState.pending (l : LocalState ρ) : List ρ := l.cursor.elim [] l.remaining

@[simp] theorem remaining_nil (l : LocalState ρ) : l.remaining [] = [] := by
  unfold LocalState.remaining
  cases l.localSlice with
  | none => rfl
  | some slice =>
      show List.take _ (List.drop _ []) = []
      rw [List.drop_nil, List.take_nil]

/-- A row that is skipped was not among those that remain. -/
theorem remaining_skip {l : LocalState ρ} {slice : LocalSlice} (hslice : l.localSlice = some slice)
    (hskip : l.rowsSkipped < slice.offset.toNat) (row : ρ) (rows : List ρ) :
    l.remaining (row :: rows) = { l with rowsSkipped := l.rowsSkipped + 1 }.remaining rows := by
  simp only [LocalState.remaining, hslice]
  have hsub : slice.offset.toNat - l.rowsSkipped = slice.offset.toNat - (l.rowsSkipped + 1) + 1 := by omega
  rw [hsub, List.drop_succ_cons]

/-- With the limit reached, nothing remains. -/
theorem remaining_capped {l : LocalState ρ} {slice : LocalSlice} (hslice : l.localSlice = some slice)
    (hcap : l.rowsEmitted ≥ slice.limit.toNat) (rows : List ρ) : l.remaining rows = [] := by
  simp only [LocalState.remaining, hslice]
  rw [Nat.sub_eq_zero_of_le hcap, List.take_zero]

/-- A row that is emitted is the first of those that remain. -/
theorem remaining_emit {l : LocalState ρ} {slice : LocalSlice} (hslice : l.localSlice = some slice)
    (hskip : ¬l.rowsSkipped < slice.offset.toNat) (hcap : ¬l.rowsEmitted ≥ slice.limit.toNat) (row : ρ)
    (rows : List ρ) :
    l.remaining (row :: rows) = row :: { l with rowsEmitted := l.rowsEmitted + 1 }.remaining rows := by
  simp only [LocalState.remaining, hslice]
  have hdrop : slice.offset.toNat - l.rowsSkipped = 0 := by omega
  have htake : slice.limit.toNat - l.rowsEmitted = slice.limit.toNat - (l.rowsEmitted + 1) + 1 := by omega
  rw [hdrop, List.drop_zero, List.drop_zero, htake, List.take_succ_cons]

/-- **One cursor**: the chunk is filled with the rows that remain, and the others are left; if the loop goes on,
    there are no others. -/
theorem drain_eq (rows : List ρ) {l l' : LocalState ρ} {chunk chunk' : List ρ} {exit : Exit}
    (hle : chunk.length ≤ target) (h : drain target rows l chunk = (exit, l', chunk')) :
    chunk' = chunk ++ (l.remaining rows).take (target - chunk.length) ∧
      l'.pending = (l.remaining rows).drop (target - chunk.length) ∧ (exit = .next → l'.cursor = none) := by
  induction rows generalizing l chunk with
  | nil =>
      unfold drain at h
      rw [remaining_nil, List.take_nil, List.drop_nil, List.append_nil]
      split_ifs at h
      · obtain ⟨rfl, rfl, rfl⟩ := h
        exact ⟨rfl, rfl, fun _ => rfl⟩
      · obtain ⟨rfl, rfl, rfl⟩ := h
        exact ⟨rfl, remaining_nil l, nofun⟩
  | cons row rows ih =>
      unfold drain at h
      by_cases hfull : chunk.length < target
      · rw [if_pos hfull] at h
        have hlength : (chunk ++ [row]).length ≤ target := by
          rw [List.length_append, List.length_singleton]
          exact hfull
        -- a row that goes into the chunk
        have hemit {next : LocalState ρ} (hrest : l.remaining (row :: rows) = row :: next.remaining rows)
            (h : drain target rows next (chunk ++ [row]) = (exit, l', chunk')) :
            chunk' = chunk ++ (l.remaining (row :: rows)).take (target - chunk.length) ∧
              l'.pending = (l.remaining (row :: rows)).drop (target - chunk.length) ∧
              (exit = .next → l'.cursor = none) := by
          have hroom : target - chunk.length = target - (chunk ++ [row]).length + 1 := by
            rw [List.length_append, List.length_singleton]
            omega
          obtain ⟨hchunk, hpending, hnext⟩ := ih hlength h
          rw [hrest, hroom, List.take_succ_cons, List.drop_succ_cons]
          refine ⟨?_, hpending, hnext⟩
          rw [hchunk, List.append_assoc]
          rfl
        cases hslice : l.localSlice with
        | none =>
            simp only [hslice] at h
            refine hemit ?_ h
            simp only [LocalState.remaining, hslice]
        | some slice =>
            simp only [hslice] at h
            split_ifs at h with hskip hcap
            · rw [remaining_skip hslice hskip]
              rw [← hslice] at h
              exact ih hle h
            · obtain ⟨rfl, rfl, rfl⟩ := h
              rw [remaining_capped hslice hcap, List.take_nil, List.drop_nil, List.append_nil]
              exact ⟨rfl, rfl, nofun⟩
            · rw [← hslice] at h
              exact hemit (remaining_emit hslice hskip hcap row rows) h
      · have hroom : target - chunk.length = 0 := Nat.sub_eq_zero_of_le (Nat.le_of_not_lt hfull)
        rw [if_neg hfull] at h
        obtain ⟨rfl, rfl, rfl⟩ := h
        rw [hroom, List.take_zero, List.append_nil, List.drop_zero]
        exact ⟨rfl, rfl, nofun⟩

/-- The rows that a serial scan still has to return. -/
def ScanState.Owes (openCursor : PartitionSpec → Option (List ρ)) (localSlice : Option LocalSlice) (st : ScanState ρ)
    (rows : List ρ) : Prop :=
  (st.queue = [] ∧ st.localState.pending = rows) ∨
    ∃ spec delivered, st.queue = [spec] ∧ st.localState.cursor = none ∧ openCursor spec = some delivered ∧
      { st.localState with localSlice }.remaining delivered = rows

/-- Behind a cursor there is nothing to open. -/
theorem drain_last {l : LocalState ρ} {delivered : List ρ} :
    ∃ st : ScanState ρ, (match drain target delivered l [] with
        | (.return, l, chunk) => some (chunk, { queue := [], localState := l })
        | (.next, l, chunk) => nextCursors openCursor localSlice target [] l chunk) =
          some ((l.remaining delivered).take target, st) ∧
      st.Owes openCursor localSlice ((l.remaining delivered).drop target) := by
  rcases hdrain : drain target delivered l [] with ⟨exit, l', chunk⟩
  obtain ⟨hchunk, hpending, -⟩ := drain_eq delivered (Nat.zero_le target) hdrain
  rw [List.nil_append, List.length_nil, Nat.sub_zero] at hchunk
  rw [List.length_nil, Nat.sub_zero] at hpending
  rw [← hchunk]
  cases exit with
  | «return» => exact ⟨_, rfl, .inl ⟨rfl, hpending⟩⟩
  | next => exact ⟨_, rfl, .inl ⟨rfl, hpending⟩⟩

/-- **One call** returns as many of the rows as the chunk has room for. -/
theorem scanFunction_eq {st : ScanState ρ} {rows : List ρ} (h : st.Owes openCursor localSlice rows) :
    ∃ st', scanFunction openCursor localSlice target st = some (rows.take target, st') ∧
      st'.Owes openCursor localSlice (rows.drop target) := by
  unfold scanFunction
  rcases h with ⟨hqueue, rfl⟩ | ⟨spec, delivered, hqueue, hcursor, hopen, rfl⟩
  · unfold LocalState.pending
    cases hcursor : st.localState.cursor with
    | none =>
        rw [hqueue]
        refine ⟨{ queue := [], localState := st.localState }, ?_, .inl ⟨rfl, ?_⟩⟩
        · show some ([], _) = some (List.take target [], _)
          rw [List.take_nil]
        · show st.localState.cursor.elim [] _ = List.drop target []
          rw [hcursor, List.drop_nil]
          rfl
    | some delivered =>
        obtain ⟨queue, l⟩ := st
        obtain rfl : queue = [] := hqueue
        exact drain_last
  · rw [hcursor, hqueue]
    show ∃ st', ((openCursor spec).bind fun _ => _) = _ ∧ _
    rw [hopen]
    exact drain_last

/-- **Any number of calls** return the rows in order, a chunk at a time. -/
theorem scanCalls_eq (calls : Nat) {st : ScanState ρ} {rows : List ρ} (h : st.Owes openCursor localSlice rows) :
    ∃ chunks, scanCalls openCursor localSlice target calls st = some chunks ∧
      chunks.flatten = rows.take (calls * target) := by
  induction calls generalizing st rows with
  | zero => exact ⟨[], rfl, by rw [Nat.zero_mul, List.take_zero, List.flatten_nil]⟩
  | succ calls ih =>
      obtain ⟨st', hcall, hrest⟩ := @scanFunction_eq ρ openCursor localSlice target st rows h
      obtain ⟨chunks, hcalls, hflatten⟩ := ih hrest
      refine ⟨rows.take target :: chunks, ?_, ?_⟩
      · show ((scanFunction openCursor localSlice target st).bind fun _ => _) = _
        rw [hcall]
        show ((scanCalls openCursor localSlice target calls st').bind fun _ => _) = _
        rw [hcalls]
        rfl
      · rw [List.flatten_cons, hflatten, Nat.succ_mul, Nat.add_comm, List.take_add]

end Paging

/-! ## The statement -/

section Statement

/-- Texts in parentheses, with something between them. -/
theorem intercalate_close (sep text : Bytes) (texts : List Bytes) :
    ∃ s, sep.intercalate ((text :: texts).map parenText) = s ++ [0x29] := by
  have hclose (text : Bytes) : parenText text = utf8 "(" ++ text ++ [0x29] := rfl
  induction texts generalizing text with
  | nil => exact ⟨_, List.intercalate_singleton.trans (hclose text)⟩
  | cons next texts ih =>
      obtain ⟨s, hs⟩ := ih next
      refine ⟨parenText text ++ sep ++ s, ?_⟩
      rw [List.map_cons, List.map_cons, List.intercalate_cons_cons, ← List.map_cons, hs]
      simp only [List.append_assoc]

/-- What follows the table ends in a parenthesis, if there is anything. -/
theorem conditions_close (sql extra : Bytes) (frags : List Bytes) :
    whereClause (frags.map parenText) ++ partitionClause sql extra = [] ∨
      ∃ s, whereClause (frags.map parenText) ++ partitionClause sql extra = s ++ [0x29] := by
  by_cases hextra : extra = []
  · have hpartition : partitionClause sql extra = [] := if_pos hextra
    rw [hpartition, List.append_nil]
    cases frags with
    | nil => exact .inl rfl
    | cons frag frags =>
        obtain ⟨s, hs⟩ := intercalate_close (utf8 " AND ") frag frags
        refine .inr ⟨utf8 " WHERE " ++ s, ?_⟩
        unfold whereClause
        rw [if_neg (by simp), hs, List.append_assoc]
  · refine .inr ⟨whereClause (frags.map parenText) ++ ((if utf8 " WHERE " <:+: sql then utf8 " AND " else
      utf8 " WHERE ") ++ utf8 "(" ++ extra), ?_⟩
    have hclose : utf8 ")" = [0x29] := rfl
    unfold partitionClause
    rw [if_neg hextra, hclose]
    simp only [List.append_assoc]

/-- A statement without `ROWS` does not end in a number. -/
theorem build_last {api : DuckdbApi} {a : BuildArgs} {filters : List (Nat × TableFilter)} (hlimit : a.limit = none)
    {ts : List Lexeme} (h : lex (build api a filters).sql = some ts) :
    ∃ us last, ts = us ++ [last] ∧ numeral last = none := by
  obtain ⟨frags, reasons, -, -, hbuild⟩ := build_sql api a filters
  have hrows : rowsClause a = [] := by
    unfold rowsClause
    rw [hlimit]
  rw [hbuild, hrows, List.append_nil] at h
  rcases conditions_close (a.selectClause ++ whereClause (frags.map parenText)) a.extraPredicate frags with hnil | ⟨s, hs⟩
  · obtain ⟨item, items, -, -, hselect⟩ := @BuildArgs.selectClause_fragment a
    rw [hnil, List.append_nil, hselect.lexes, lexemes_inl] at h
    refine ⟨keyword "SELECT" :: (itemsLexemes item items ++ [keyword "FROM"]), .ident a.tableName, ?_, rfl⟩
    rw [← Option.some.inj h, List.cons_append, List.append_assoc]
    rfl
  · rw [hs, ← List.append_assoc] at h
    obtain ⟨us, rfl⟩ := lex_symbol (by decide) (by decide) h
    exact ⟨us, _, rfl, rfl⟩

variable {bind : ScanBindData} {api : DuckdbApi} {columnIds : List Nat} {filters : List (Nat × TableFilter)}
  {spec : PartitionSpec}

/-- Without a pushed limit nothing is added to the statement. -/
theorem sql_unsliced (h : bind.pagination.limitToPush = none) :
    (bind.partitionQuery api columnIds filters spec).sql = bind.unslicedSql api columnIds filters spec ∧
      (bind.buildArgs columnIds spec).limit = none := by
  have hargs : bind.buildArgs columnIds spec = { bind.buildArgs columnIds spec with limit := none } := by
    unfold ScanBindData.buildArgs
    rw [h]
  refine ⟨?_, h⟩
  unfold ScanBindData.unslicedSql ScanBindData.partitionQuery
  rw [h, ← hargs]
  exact (List.append_nil _).symm

/-- A pushed limit adds `ROWS`. -/
theorem sql_sliced {limit : UInt64} (h : bind.pagination.limitToPush = some limit) :
    (bind.partitionQuery api columnIds filters spec).sql = bind.unslicedSql api columnIds filters spec ++
      match bind.pagination.offsetToPush with
      | some offset => utf8 " ROWS " ++ idxText (offset + 1) ++ utf8 " TO " ++ idxText (offset + limit)
      | none => utf8 " ROWS " ++ idxText limit := by
  have hrows : rowsClause (bind.buildArgs columnIds spec) =
      utf8 " ORDER BY " ++ bind.pagination.orderBy ++
        match bind.pagination.offsetToPush with
        | some offset => utf8 " ROWS " ++ idxText (offset + 1) ++ utf8 " TO " ++ idxText (offset + limit)
        | none => utf8 " ROWS " ++ idxText limit := by
    have hlimit : (bind.buildArgs columnIds spec).limit = some limit := h
    unfold rowsClause
    rw [hlimit]
    rfl
  have hbuild : (bind.partitionQuery api columnIds filters spec).sql =
      (build api { bind.buildArgs columnIds spec with limit := none } filters).sql ++
        rowsClause (bind.buildArgs columnIds spec) := by
    show _ ++ rowsClause (bind.buildArgs columnIds spec) = (_ ++ []) ++ rowsClause (bind.buildArgs columnIds spec)
    rw [List.append_nil]
    rfl
  unfold ScanBindData.unslicedSql
  rw [hbuild, hrows, h, Option.isSome_some, if_pos rfl]
  simp only [List.append_assoc]

end Statement

/-! ## One partition -/

/-- A serial scan has one partition, unless the number of keys is out of range. -/
theorem initPartitions_serial (hw : UInt32) {partitions : PartitionsOverride} (hserial : partitions.value = 1)
    {pk : Option PrimaryKeyInfo} (hspan : ∀ key ∈ pk, key.maxValue - key.minValue + 1 < 2 ^ 63) :
    ∃ spec, initPartitions hw partitions pk = some [spec] := by
  cases pk with
  | none => exact ⟨{}, rfl⟩
  | some key =>
      have hkeys : key.maxValue - key.minValue + 1 < 2 ^ 63 := hspan key rfl
      have hlt := key.min_lt_max
      have h1 : int64 (key.maxValue - key.minValue) = some (key.maxValue - key.minValue) :=
        int64_of_mem (by omega) (by omega)
      have h2 : int64 (key.maxValue - key.minValue + 1) = some (key.maxValue - key.minValue + 1) :=
        int64_of_mem (by omega) hkeys
      have hcount : partitionCount hw partitions key.minValue key.maxValue = some 1 := by
        simp only [partitionCount, requestedCount, hserial, h1, h2, Option.bind_eq_bind, Option.bind_some]
        rw [if_pos (by decide), Option.bind_some, if_neg (by omega)]
      have hloop := keyRangesFrom_eq 1 (i := 0) fun j _ hj =>
        keyRange_eq key.min_int64 key.max_int64 hkeys (n := 1) (by omega) (show j < 1 by omega)
      refine ⟨⟨some (cut key.minValue (key.maxValue - key.minValue + 1) 1 0,
        cut key.minValue (key.maxValue - key.minValue + 1) 1 1 - 1)⟩, ?_⟩
      simp only [initPartitions, keyRanges, hcount, Option.bind_eq_bind, Option.bind_some]
      rw [hloop]
      rfl

theorem initPartitions_span {hw : UInt32} {partitions : PartitionsOverride} {pk : Option PrimaryKeyInfo}
    {specs : List PartitionSpec} (h : initPartitions hw partitions pk = some specs) :
    ∀ key ∈ pk, key.maxValue - key.minValue + 1 < 2 ^ 63 := by
  rintro key rfl
  obtain ⟨ranges, hranges, -⟩ := Option.map_eq_some_iff.mp h
  exact keyRanges_span hranges

/-! ## The slice -/

theorem bindRowLimit_ok {rowLimit : Int64} {limit : Option UInt64} (h : bindRowLimit (some rowLimit) = .ok limit) :
    limit = some rowLimit.toUInt64 ∧ 0 ≤ rowLimit := by
  unfold bindRowLimit at h
  dsimp only at h
  split_ifs at h with hneg
  obtain rfl := Except.ok.inj h
  exact ⟨rfl, Int64.le_of_lt (Int64.not_le.mp hneg)⟩

theorem bindRowOffset_ok {rowOffset : Option Int64} {offset : Option UInt64}
    (h : bindRowOffset rowOffset = .ok offset) : offset = rowOffset.map Int64.toUInt64 ∧ ∀ o ∈ rowOffset, 0 ≤ o := by
  unfold bindRowOffset at h
  cases rowOffset with
  | none =>
      obtain rfl := Except.ok.inj h
      exact ⟨rfl, nofun⟩
  | some o =>
      dsimp only at h
      split_ifs at h with hneg
      obtain rfl := Except.ok.inj h
      refine ⟨rfl, fun o' ho => ?_⟩
      obtain rfl := Option.some.inj ho
      exact Int64.not_lt.mp hneg

/-- **What the bind accepts**: with a limit, the scan is serial, and the two numbers are taken as they are. -/
theorem bindPaging_ok {partitions rowOffset : Option Int64} {rowLimit : Int64} {paging : PagingArguments}
    (h : bindPaging partitions (some rowLimit) rowOffset = .ok paging) :
    paging.partitionsOverride.value = 1 ∧ paging.limitOverride = some rowLimit.toUInt64 ∧
      paging.offsetOverride = rowOffset.map Int64.toUInt64 ∧ 0 ≤ rowLimit ∧ ∀ o ∈ rowOffset, 0 ≤ o := by
  unfold bindPaging at h
  rcases hp : bindPartitions partitions with e | p
  · rw [hp] at h
    cases h
  rcases hl : bindRowLimit (some rowLimit) with e | limit
  · rw [hp, hl] at h
    cases h
  rcases ho : bindRowOffset rowOffset with e | offset
  · rw [hp, hl, ho] at h
    cases h
  obtain ⟨rfl, hlimit⟩ := bindRowLimit_ok hl
  obtain ⟨rfl, hoffset⟩ := bindRowOffset_ok ho
  rw [hp, hl, ho] at h
  dsimp only [bind, Except.bind] at h
  split_ifs at h with h1 h2 h3 hpaging
  · obtain rfl := Except.ok.inj h
    exact ⟨rfl, rfl, rfl, hlimit, hoffset⟩
  · exact absurd rfl hpaging

section Slice

variable {ρ : Type} {S : RowServer ρ} {api : DuckdbApi} {bind : ScanBindData} {columnIds : List Nat}
  {filters : List (Nat × TableFilter)} {spec : PartitionSpec} {R : List ρ}

/-- The server takes the slice that is pushed. -/
theorem answer_sliced {limit : UInt64} (hlimit : limit.toNat < 2 ^ 63)
    (hoffset : ∀ offset ∈ bind.offsetOverride, offset.toNat < 2 ^ 63) (hpush : bind.pagination.limitToPush = some limit)
    (hoff : bind.pagination.offsetToPush = bind.offsetOverride)
    (hR : S.Delivers (bind.unslicedSql api columnIds filters spec)
      (bind.partitionQuery api columnIds filters spec).params R) :
    bind.openCursor S api columnIds filters spec =
      some ((R.drop (bind.offsetOverride.getD 0).toNat).take limit.toNat) := by
  unfold ScanBindData.openCursor
  rw [sql_sliced hpush, hoff]
  cases hcase : bind.offsetOverride with
  | none => exact answer_rows hR limit
  | some offset =>
      have hlt : offset.toNat < 2 ^ 63 := hoffset offset hcase
      have hfirst : (offset + 1).toNat = offset.toNat + 1 := by
        rw [UInt64.toNat_add, UInt64.toNat_one]
        omega
      have hlast : (offset + limit).toNat = offset.toNat + limit.toNat := by
        rw [UInt64.toNat_add]
        omega
      have hanswer := answer_rowsTo hR (m := offset + 1) (by omega) (offset + limit)
      rw [hfirst, hlast, Nat.add_sub_cancel,
        show offset.toNat + limit.toNat + 1 - (offset.toNat + 1) = limit.toNat by omega] at hanswer
      exact hanswer

/-- **The rows that a serial scan owes at its start are the slice**, wherever it is taken. -/
theorem start_owes {limit : UInt64} (hlimit : bind.limitOverride = some limit) (hlt : limit.toNat < 2 ^ 63)
    (hoffset : ∀ offset ∈ bind.offsetOverride, offset.toNat < 2 ^ 63)
    (hR : S.Delivers (bind.unslicedSql api columnIds filters spec)
      (bind.partitionQuery api columnIds filters spec).params R) :
    Paging.ScanState.Owes (bind.openCursor S api columnIds filters) bind.pagination.localSlice { queue := [spec] }
      ((R.drop (bind.offsetOverride.getD 0).toNat).take limit.toNat) := by
  have hpushed (hpush : bind.pagination.limitToPush = some limit)
      (hoff : bind.pagination.offsetToPush = bind.offsetOverride) (hlocal : bind.pagination.localSlice = none) :
      Paging.ScanState.Owes (bind.openCursor S api columnIds filters) bind.pagination.localSlice { queue := [spec] }
        ((R.drop (bind.offsetOverride.getD 0).toNat).take limit.toNat) := by
    rw [hlocal]
    exact .inr ⟨spec, _, rfl, rfl, answer_sliced hlt hoffset hpush hoff hR, rfl⟩
  cases hpk : bind.pk with
  | some pk =>
      refine hpushed ?_ ?_ ?_ <;> simp only [ScanBindData.pagination, hlimit, hpk]
  | none =>
      by_cases hsafe : (!bind.isView || bind.isViewSimpleForPagination) = true
      · refine hpushed ?_ ?_ ?_ <;> simp only [ScanBindData.pagination, hlimit, hpk, if_pos hsafe]
      · -- the slice is taken from the rows of the statement itself
        have hpagination : bind.pagination =
            { localSlice := some { offset := bind.offsetOverride.getD 0, limit } } := by
          unfold ScanBindData.pagination
          simp only [hlimit, hpk, if_neg hsafe]
        have hpush : bind.pagination.limitToPush = none := by rw [hpagination]
        obtain ⟨hsql, hargs⟩ := @sql_unsliced bind api columnIds filters spec hpush
        obtain ⟨ts, hts, hrows⟩ := hR
        have hlex := hts
        rw [← hsql] at hlex
        obtain ⟨us, last, rfl, hlast⟩ := build_last hargs hlex
        have hopen : bind.openCursor S api columnIds filters spec = some R := by
          unfold ScanBindData.openCursor
          rw [hsql]
          exact answer_plain hts hlast ⟨_, hts, hrows⟩
        exact .inr ⟨spec, R, rfl, rfl, hopen, by rw [hpagination]; rfl⟩

/-- So are they with the paging arguments that the bind accepts. -/
theorem paged_owes {partitions rowOffset : Option Int64} {rowLimit : Int64} {paging : PagingArguments}
    (hbind : bindPaging partitions (some rowLimit) rowOffset = .ok paging)
    (hR : S.Delivers ((bind.paged paging).unslicedSql api columnIds filters spec)
      ((bind.paged paging).partitionQuery api columnIds filters spec).params R) :
    Paging.ScanState.Owes ((bind.paged paging).openCursor S api columnIds filters)
      (bind.paged paging).pagination.localSlice { queue := [spec] }
      ((R.drop (rowOffset.getD 0).toNatClampNeg).take rowLimit.toNatClampNeg) := by
  obtain ⟨-, hlimit, hoffset, hlimit0, hoffset0⟩ := bindPaging_ok hbind
  have hlimitNat : rowLimit.toUInt64.toNat = rowLimit.toNatClampNeg := Int64.toNat_toUInt64_of_le hlimit0
  have hoffsetNat : (rowOffset.map Int64.toUInt64 |>.getD 0).toNat = (rowOffset.getD 0).toNatClampNeg := by
    cases rowOffset with
    | none => rfl
    | some o => exact Int64.toNat_toUInt64_of_le (hoffset0 o rfl)
  have hslice : (bind.paged paging).offsetOverride = rowOffset.map Int64.toUInt64 := hoffset
  have howes := @start_owes ρ S api (bind.paged paging) columnIds filters spec R rowLimit.toUInt64 hlimit
    (hlimitNat ▸ rowLimit.toNatClampNeg_lt) (fun offset ho => ?_) hR
  · rw [hslice, hlimitNat, hoffsetNat] at howes
    exact howes
  · rw [hslice] at ho
    obtain ⟨o, hgiven, rfl⟩ := Option.map_eq_some_iff.mp ho
    rw [Int64.toNat_toUInt64_of_le (hoffset0 o hgiven)]
    exact o.toNatClampNeg_lt

end Slice

/-- **A scan returns the slice exactly when the number of keys is in range.** Whatever pair the bind accepts, and
    whatever the relation is: there is one partition, and if the server delivers the rows `R` for its statement
    without `ROWS`, any number of calls return the rows of the slice in order, as many as fit into their chunks,
    and no others. The number of keys only matters if there is a numeric primary key. -/
theorem scan_slice_iff {ρ : Type} (S : RowServer ρ) (api : DuckdbApi) (hw : UInt32)
    {partitions rowOffset : Option Int64} {rowLimit : Int64} {paging : PagingArguments}
    (hbind : bindPaging partitions (some rowLimit) rowOffset = .ok paging) (bind : ScanBindData)
    (columnIds : List Nat) (filters : List (Nat × TableFilter)) (target : Nat) :
    (∃ spec, initPartitions hw paging.partitionsOverride bind.pk = some [spec] ∧
      ∀ R, S.Delivers ((bind.paged paging).unslicedSql api columnIds filters spec)
          ((bind.paged paging).partitionQuery api columnIds filters spec).params R →
        ∀ calls, ∃ chunks, (bind.paged paging).scan S api columnIds filters target [spec] calls = some chunks ∧
          chunks.flatten =
            ((R.drop (rowOffset.getD 0).toNatClampNeg).take rowLimit.toNatClampNeg).take (calls * target)) ↔
      ∀ key ∈ bind.pk, key.maxValue - key.minValue + 1 < 2 ^ 63 := by
  constructor
  · rintro ⟨spec, hinit, -⟩
    exact initPartitions_span hinit
  · intro hspan
    obtain ⟨spec, hspec⟩ := initPartitions_serial hw (bindPaging_ok hbind).1 hspan
    exact ⟨spec, hspec, fun R hR calls => Paging.scanCalls_eq calls (paged_owes hbind hR)⟩

/-- A view with a join, of one column. -/
def joinView : ScanBindData where
  columnNames := [utf8 "N"]
  columnDescs := [{ name := utf8 "N", sqltype := .long }]
  tableName := utf8 "V"
  isView := true

/-- A server that has the numbers up to five in it. -/
def joinViewServer : RowServer Nat where
  rows ts _ :=
    if ts = [keyword "SELECT", .ident (utf8 "N"), keyword "FROM", .ident (utf8 "V")] then some [1, 2, 3, 4, 5] else none

/-- A limit of `2` behind an offset of `1`, in chunks of one row. -/
def secondAndThird : PagingArguments where
  partitionsOverride := ⟨1, by decide⟩
  limitOverride := some 2
  offsetOverride := some 1

theorem scan_slice_iff_view :
    ∃ chunks, (joinView.paged secondAndThird).scan joinViewServer .v1_5 [0] [] 1 [{}] 3 = some chunks ∧
      chunks.flatten = [2, 3] := by
  have hpk : ∀ key ∈ joinView.pk, key.maxValue - key.minValue + 1 < 2 ^ 63 := fun key hkey => by cases hkey
  obtain ⟨spec, hspec, hslice⟩ := (@scan_slice_iff Nat joinViewServer .v1_5 8 none (some 1) 2 secondAndThird rfl
    joinView [0] [] 1).mpr hpk
  obtain rfl := (List.cons.inj (Option.some.inj hspec)).1
  have hlex : lex ((joinView.paged secondAndThird).unslicedSql .v1_5 [0] [] {}) =
      some [keyword "SELECT", .ident (utf8 "N"), keyword "FROM", .ident (utf8 "V")] := by decide
  exact hslice [1, 2, 3, 4, 5] ⟨_, hlex, rfl⟩ 3

/-- **The serial scan computes the number of keys all the same**: on the keys `0 … INT64_MAX` it overflows. -/
theorem scan_halfLine_overflows :
    ∃ paging, bindPaging none (some 10) none = .ok paging ∧
      ¬∃ spec, initPartitions 8 paging.partitionsOverride (some halfLine) = some [spec] := by
  refine ⟨{ partitionsOverride := ⟨1, by decide⟩, limitOverride := some 10, offsetOverride := none }, rfl, ?_⟩
  have hnone : initPartitions 8 ⟨1, by decide⟩ (some halfLine) = none := by decide
  exact fun ⟨spec, hspec⟩ => nomatch hnone.symm.trans hspec

end FirebirdScan
