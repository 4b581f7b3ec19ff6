import FirebirdScan.Lib.Run
import Mathlib.Algebra.BigOperators.Fin
import Mathlib.Algebra.BigOperators.Group.Finset.Piecewise
import Mathlib.Algebra.Order.Group.Multiset
import Mathlib.Data.Multiset.Bind
import Mathlib.Data.Multiset.Range

/-!
# `Scanner.Workers` — the scan loop over a shared partition queue (`FirebirdScanFunction`)

Every worker of a scan takes partitions from one queue, fetches each through a cursor of its own, and returns
the rows in chunks; an empty chunk tells the engine that the worker is done. A cursor outlives the call that
opened it, and one call may chain several partitions.

A run is a schedule: which worker takes the next step. A step is the start of a call, one round of its loop,
or its return; `NextPartition` is one step because it holds the lock. `opened` and `chunks` record what a
worker did and decide nothing. The slice that a `LIMIT` may ask for, fetch errors and the counters for
telemetry are left out.

`Inv` is the invariant: the partitions opened so far, all workers together, are those before the queue index,
and each worker's rows, on their way or still in its cursor, are the rows of the partitions it opened.
-/

namespace FirebirdScan
namespace Workers

open Run

variable {π ρ : Type}

/-! ## The source -/

/-- `FirebirdGlobalState`: the queue and its index. -/
structure GlobalState (π : Type) where
  partitions : List π
  nextPartition : Nat := 0

/-- `NextPartition`. The entry is moved out of the vector, which leaves `movedFrom` in its place. -/
def nextPartition (movedFrom : π) (g : GlobalState π) : Option (π × GlobalState π) :=
  match g.partitions[g.nextPartition]? with
  | none => none
  | some spec =>
      some (spec, { partitions := g.partitions.set g.nextPartition movedFrom,
                    nextPartition := g.nextPartition + 1 })

/-- `FirebirdLocalState`: the rows the cursor still holds, the rows of the call in progress, the partitions
    opened, and the chunks returned. -/
structure LocalState (ρ : Type) where
  cursor : Option (List ρ) := none
  fetchChunk : Option (List ρ) := none
  opened : List Nat := []
  chunks : List (List ρ) := []

/-- The call in progress returns. -/
def LocalState.return (l : LocalState ρ) (chunk : List ρ) : LocalState ρ :=
  { l with fetchChunk := none, chunks := l.chunks ++ [chunk] }

/-- One step of a worker in `FirebirdScanFunction`. `rowsOf` is what a cursor on a partition delivers, and
    `target` the size of a chunk. -/
def workerStep (rowsOf : π → List ρ) (movedFrom : π) (target : Nat) (g : GlobalState π)
    (l : LocalState ρ) : GlobalState π × LocalState ρ :=
  match l.fetchChunk with
  | none => (g, { l with fetchChunk := some [] })
  | some chunk =>
      if chunk.length < target then
        match l.cursor with
        -- `OpenNextPartitionCursor`; with the queue exhausted, what there is is returned
        | none =>
            match nextPartition movedFrom g with
            | none => (g, l.return chunk)
            | some (spec, g') =>
                (g', { l with cursor := some (rowsOf spec), opened := l.opened ++ [g.nextPartition] })
        -- `Fetch` finds the end of the cursor: `cursor.reset()`, and once more around the loop
        | some [] => (g, { l with cursor := none })
        | some (row :: rows) => (g, { l with cursor := some rows, fetchChunk := some (chunk ++ [row]) })
      else (g, l.return chunk)

/-- The queue and the workers' states. -/
structure World (workers : Nat) (π ρ : Type) where
  globalState : GlobalState π
  localState : Fin workers → LocalState ρ

/-- A scan before its first call. -/
def World.start (partitions : List π) (workers : Nat) : World workers π ρ where
  globalState := { partitions }
  localState := fun _ => {}

/-- Worker `i` takes a step. -/
def scanStep (rowsOf : π → List ρ) (movedFrom : π) (target : Nat) {workers : Nat}
    (w : World workers π ρ) (i : Fin workers) : World workers π ρ where
  globalState := (workerStep rowsOf movedFrom target w.globalState (w.localState i)).1
  localState :=
    Function.update w.localState i (workerStep rowsOf movedFrom target w.globalState (w.localState i)).2

/-! ## The invariant -/

/-- The rows of partition `k`. -/
def rowsAt (rowsOf : π → List ρ) (partitions : List π) (k : Nat) : List ρ :=
  (partitions[k]?).elim [] rowsOf

/-- The queue: what is still to be taken is as it was. -/
structure GlobalState.Inv (partitions : List π) (g : GlobalState π) : Prop where
  index_le : g.nextPartition ≤ partitions.length
  unopened : ∀ k, g.nextPartition ≤ k → g.partitions[k]? = partitions[k]?

/-- A worker, when the queue stands at `next`. -/
structure LocalState.Inv (rowsOf : π → List ρ) (partitions : List π) (target next : Nat)
    (l : LocalState ρ) : Prop where
  /-- What was returned, what the call holds and what the cursor holds are the rows of the partitions opened,
      one partition after the other and each in cursor order. -/
  rows_in_order : l.chunks.flatten ++ l.fetchChunk.getD [] ++ l.cursor.getD [] =
    l.opened.flatMap (rowsAt rowsOf partitions)
  chunk_le : ∀ chunk ∈ l.chunks, chunk.length ≤ target
  fetchChunk_le : (l.fetchChunk.getD []).length ≤ target
  /-- After an empty chunk the queue is exhausted and the worker holds no row. -/
  drained : [] ∈ l.chunks → partitions.length ≤ next ∧ l.cursor = none ∧ l.fetchChunk.getD [] = []

/-- What holds in every state a scan reaches. -/
structure Inv (rowsOf : π → List ρ) (partitions : List π) (target : Nat) {workers : Nat}
    (w : World workers π ρ) : Prop where
  queue : w.globalState.Inv partitions
  worker : ∀ i, (w.localState i).Inv rowsOf partitions target w.globalState.nextPartition
  /-- The partitions opened, with their repetitions over all workers: every one before the index, once. -/
  opened_once : ∑ i, ((w.localState i).opened : Multiset Nat) =
    Multiset.range w.globalState.nextPartition

/-! ## One step -/

theorem nextPartition_eq_some {movedFrom spec : π} {g g' : GlobalState π}
    (h : nextPartition movedFrom g = some (spec, g')) :
    g.partitions[g.nextPartition]? = some spec ∧ g'.nextPartition = g.nextPartition + 1 ∧
      g'.partitions = g.partitions.set g.nextPartition movedFrom := by
  unfold nextPartition at h
  cases hspec : g.partitions[g.nextPartition]? with
  | none => simp [hspec] at h
  | some found =>
      simp only [hspec, Option.some.injEq, Prod.mk.injEq] at h
      obtain ⟨rfl, rfl⟩ := h
      exact ⟨rfl, rfl, rfl⟩

theorem nextPartition_eq_none {movedFrom : π} {g : GlobalState π} {partitions : List π}
    (hg : g.Inv partitions) (h : nextPartition movedFrom g = none) :
    partitions.length ≤ g.nextPartition := by
  unfold nextPartition at h
  cases hspec : g.partitions[g.nextPartition]? with
  | none => exact List.getElem?_eq_none_iff.mp ((hg.unopened _ (Nat.le_refl _)).symm.trans hspec)
  | some found => simp [hspec] at h

/-- Taking a partition keeps the queue. -/
theorem nextPartition_inv {movedFrom spec : π} {g g' : GlobalState π} {partitions : List π}
    (hg : g.Inv partitions) (h : nextPartition movedFrom g = some (spec, g')) :
    g'.Inv partitions ∧ partitions[g.nextPartition]? = some spec := by
  obtain ⟨hspec, hindex, hparts⟩ := nextPartition_eq_some h
  have hsame := hg.unopened _ (Nat.le_refl _)
  rw [hspec] at hsame
  have hlt := (List.getElem?_eq_some_iff.mp hsame.symm).1
  refine ⟨⟨by omega, fun k hk => ?_⟩, hsame.symm⟩
  -- the entry that was moved out lies before the new index
  rw [hparts, List.getElem?_set_ne (by omega)]
  exact hg.unopened k (by omega)

/-- A worker's invariant survives the steps of the others: the index only grows. -/
theorem LocalState.Inv.mono {rowsOf : π → List ρ} {partitions : List π} {target next next' : Nat}
    {l : LocalState ρ} (h : l.Inv rowsOf partitions target next) (hle : next ≤ next') :
    l.Inv rowsOf partitions target next' where
  rows_in_order := h.rows_in_order
  chunk_le := h.chunk_le
  fetchChunk_le := h.fetchChunk_le
  drained := fun hempty => ⟨Nat.le_trans (h.drained hempty).1 hle, (h.drained hempty).2⟩

/-- What a step can do to the queue and to the worker's `opened`. -/
def Opens (g g' : GlobalState π) (l l' : LocalState ρ) : Prop :=
  (g' = g ∧ l'.opened = l.opened) ∨
  (g'.nextPartition = g.nextPartition + 1 ∧ l'.opened = l.opened ++ [g.nextPartition])

section Step

variable {rowsOf : π → List ρ} {movedFrom : π} {target : Nat} {partitions : List π}
  {g : GlobalState π} {l : LocalState ρ} {chunk : List ρ}

/-- A return: an empty chunk is returned only by a worker that has nothing left. -/
theorem LocalState.Inv.return (hl : l.Inv rowsOf partitions target g.nextPartition)
    (hchunk : l.fetchChunk = some chunk)
    (hempty : chunk = [] → partitions.length ≤ g.nextPartition ∧ l.cursor = none) :
    (l.return chunk).Inv rowsOf partitions target g.nextPartition where
  rows_in_order := by
    have h := hl.rows_in_order
    simp only [hchunk, Option.getD_some] at h
    simp only [LocalState.return, List.flatten_append, List.flatten_singleton, Option.getD_none,
      List.append_nil]
    exact h
  chunk_le := by
    intro c hc
    have hle := hl.fetchChunk_le
    simp only [hchunk, Option.getD_some] at hle
    simp only [LocalState.return, List.mem_append, List.mem_singleton] at hc
    rcases hc with hc | rfl
    · exact hl.chunk_le c hc
    · exact hle
  fetchChunk_le := Nat.zero_le _
  drained := by
    intro h
    simp only [LocalState.return, List.mem_append, List.mem_singleton] at h
    rcases h with h | h
    · exact ⟨(hl.drained h).1, (hl.drained h).2.1, rfl⟩
    · exact ⟨(hempty h.symm).1, (hempty h.symm).2, rfl⟩

variable (rowsOf movedFrom target g l) in
/-- What a step of a worker can do. -/
inductive Works : GlobalState π → LocalState ρ → Prop where
  | starts : l.fetchChunk = none → Works g { l with fetchChunk := some [] }
  | returns (chunk : List ρ) : l.fetchChunk = some chunk →
      (target ≤ chunk.length ∨ (l.cursor = none ∧ nextPartition movedFrom g = none)) → Works g (l.return chunk)
  | opens (chunk : List ρ) (spec : π) (g' : GlobalState π) : l.fetchChunk = some chunk → l.cursor = none →
      nextPartition movedFrom g = some (spec, g') →
      Works g' { l with cursor := some (rowsOf spec), opened := l.opened ++ [g.nextPartition] }
  | ends (chunk : List ρ) : l.fetchChunk = some chunk → l.cursor = some [] → Works g { l with cursor := none }
  | fetches (chunk : List ρ) (row : ρ) (rows : List ρ) : l.fetchChunk = some chunk → chunk.length < target →
      l.cursor = some (row :: rows) →
      Works g { l with cursor := some rows, fetchChunk := some (chunk ++ [row]) }

theorem workerStep_works {g' : GlobalState π} {l' : LocalState ρ}
    (h : workerStep rowsOf movedFrom target g l = (g', l')) : Works rowsOf movedFrom target g l g' l' := by
  unfold workerStep at h
  split at h
  next hchunk =>
    cases h
    exact .starts hchunk
  next chunk hchunk =>
    split_ifs at h with hfull
    · split at h
      next hcursor =>
        split at h
        next hnext =>
          cases h
          exact .returns chunk hchunk (.inr ⟨hcursor, hnext⟩)
        next spec rest hnext =>
          cases h
          exact .opens chunk spec _ hchunk hcursor hnext
      next hcursor =>
        cases h
        exact .ends chunk hchunk hcursor
      next row rows hcursor =>
        cases h
        exact .fetches chunk row rows hchunk hfull hcursor
    · cases h
      exact .returns chunk hchunk (.inl (Nat.le_of_not_lt hfull))

/-- **One step of one worker.** -/
theorem workerStep_inv (htarget : 0 < target) (hg : g.Inv partitions)
    (hl : l.Inv rowsOf partitions target g.nextPartition) {g' : GlobalState π} {l' : LocalState ρ}
    (h : workerStep rowsOf movedFrom target g l = (g', l')) :
    g'.Inv partitions ∧ l'.Inv rowsOf partitions target g'.nextPartition ∧ Opens g g' l l' := by
  have horder := hl.rows_in_order
  have hle := hl.fetchChunk_le
  cases workerStep_works h with
  | starts hchunk =>
      refine ⟨hg, ⟨?_, hl.chunk_le, Nat.zero_le _, ?_⟩, .inl ⟨rfl, rfl⟩⟩
      · rw [hchunk] at horder
        exact horder
      · intro hempty
        exact ⟨(hl.drained hempty).1, (hl.drained hempty).2.1, rfl⟩
  | returns chunk hchunk hwhy =>
      refine ⟨hg, hl.return hchunk ?_, .inl ⟨rfl, rfl⟩⟩
      rintro rfl
      rcases hwhy with hfull | ⟨hcursor, hnext⟩
      · -- a full chunk has a row, since a chunk holds at least one
        exact absurd htarget (Nat.not_lt.mpr hfull)
      · exact ⟨nextPartition_eq_none hg hnext, hcursor⟩
  | opens chunk spec g' hchunk hcursor hnext =>
      -- the partition is at the index, whose entry is untouched
      obtain ⟨hrest, hspec⟩ := nextPartition_inv hg hnext
      obtain ⟨-, hindex, -⟩ := nextPartition_eq_some hnext
      refine ⟨hrest, ⟨?_, hl.chunk_le, hle, ?_⟩, .inr ⟨hindex, rfl⟩⟩
      · rw [hcursor] at horder
        simp [← horder, rowsAt, hspec]
      · -- the queue was not exhausted, so no chunk is empty yet
        intro hempty
        have hlt := (List.getElem?_eq_some_iff.mp hspec).1
        have hdrained := (hl.drained hempty).1
        omega
  | ends chunk hchunk hcursor =>
      refine ⟨hg, ⟨?_, hl.chunk_le, hle, ?_⟩, .inl ⟨rfl, rfl⟩⟩
      · rw [hcursor] at horder
        exact horder
      · intro hempty
        exact ⟨(hl.drained hempty).1, rfl, (hl.drained hempty).2.2⟩
  | fetches chunk row rows hchunk hfull hcursor =>
      rw [hchunk, hcursor] at horder
      refine ⟨hg, ⟨?_, hl.chunk_le, ?_, ?_⟩, .inl ⟨rfl, rfl⟩⟩
      · simpa using horder
      · simpa using Nat.succ_le_of_lt hfull
      · -- a worker with a cursor has returned no empty chunk
        intro hempty
        have hnone := (hl.drained hempty).2.1
        rw [hcursor] at hnone
        cases hnone

end Step

/-! ## Every schedule -/

/-- A sum over the workers, after one of them added to its share. -/
theorem sum_of_share_grows {ι M : Type} [Fintype ι] [DecidableEq ι] [AddCommMonoid M] (f : ι → M)
    (i : ι) (b : M) : ∑ j, Function.update f i (f i + b) j = (∑ j, f j) + b := by
  have hf : ∑ j, f j = f i + ∑ j ∈ Finset.univ.erase i, f j :=
    (Finset.add_sum_erase _ f (Finset.mem_univ i)).symm
  have hupdate := Finset.sum_update_of_mem (Finset.mem_univ i) f (f i + b)
  rw [Finset.sdiff_singleton_eq_erase] at hupdate
  rw [hupdate, hf]
  exact add_right_comm _ _ _

theorem scanStep_inv {rowsOf : π → List ρ} {movedFrom : π} {target : Nat} {partitions : List π}
    {workers : Nat} (htarget : 0 < target) (w : World workers π ρ) (i : Fin workers)
    (hw : Inv rowsOf partitions target w) :
    Inv rowsOf partitions target (scanStep rowsOf movedFrom target w i) := by
  cases hstep : workerStep rowsOf movedFrom target w.globalState (w.localState i) with
  | mk g' l' =>
      obtain ⟨hg, hl, hopens⟩ := workerStep_inv htarget hw.queue (hw.worker i) hstep
      have hindex : w.globalState.nextPartition ≤ g'.nextPartition := by
        rcases hopens with ⟨rfl, -⟩ | ⟨h, -⟩ <;> omega
      refine ⟨by simpa only [scanStep, hstep] using hg, fun j => ?_, ?_⟩
      · simp only [scanStep, hstep]
        by_cases hj : j = i
        · subst hj
          rw [Function.update_self]
          exact hl
        · rw [Function.update_of_ne hj]
          exact (hw.worker j).mono hindex
      · -- the worker's own share grows by what the index passed
        have hshare : ∀ j, ((Function.update w.localState i l' j).opened : Multiset Nat) =
            Function.update (fun j => ((w.localState j).opened : Multiset Nat)) i
              (l'.opened : Multiset Nat) j := by
          intro j
          by_cases hj : j = i
          · subst hj
            simp
          · simp [hj]
        simp only [scanStep, hstep, hshare]
        rcases hopens with ⟨rfl, hsame⟩ | ⟨hnext, happ⟩
        · rw [hsame, Function.update_eq_self_iff.mpr rfl]
          exact hw.opened_once
        · rw [happ, ← Multiset.coe_add, sum_of_share_grows, hw.opened_once, hnext, Multiset.range_succ,
            Multiset.coe_singleton, ← Multiset.singleton_add, add_comm]

theorem start_inv (rowsOf : π → List ρ) (partitions : List π) (target workers : Nat) :
    Inv rowsOf partitions target (World.start partitions workers) where
  queue := ⟨Nat.zero_le _, fun _ _ => rfl⟩
  worker := fun _ => ⟨rfl, by simp [World.start], Nat.zero_le _, by simp [World.start]⟩
  opened_once := by simp [World.start]

/-- The state a schedule reaches. -/
def reached (rowsOf : π → List ρ) (movedFrom : π) (target : Nat) (partitions : List π) {workers : Nat}
    (schedule : List (Fin workers)) : World workers π ρ :=
  run (scanStep rowsOf movedFrom target) (World.start partitions workers) schedule

/-- **Every schedule keeps the invariant.** -/
theorem run_inv (rowsOf : π → List ρ) (movedFrom : π) {target : Nat} (htarget : 0 < target)
    (partitions : List π) {workers : Nat} (schedule : List (Fin workers)) :
    Inv rowsOf partitions target (reached rowsOf movedFrom target partitions schedule) := by
  have hmeets : Meets (scanStep rowsOf movedFrom target) (fun _ _ => True) (World.start partitions workers)
      schedule := Meets.always _ _
  exact run_invariant (fun w i hw _ => scanStep_inv htarget w i hw)
    (start_inv rowsOf partitions target workers) hmeets

/-! ## The end of a scan -/

/-- Every worker has returned an empty chunk. -/
def Finished {workers : Nat} (w : World workers π ρ) : Prop := ∀ i, [] ∈ (w.localState i).chunks

/-- The rows of all chunks of all workers. -/
def emitted {workers : Nat} (w : World workers π ρ) : Multiset ρ :=
  ∑ i, ((w.localState i).chunks.flatten : Multiset ρ)

/-- The rows of all partitions, partition by partition. -/
theorem range_flatMap_rowsAt (rowsOf : π → List ρ) (partitions : List π) :
    (List.range partitions.length).flatMap (rowsAt rowsOf partitions) = partitions.flatMap rowsOf := by
  induction partitions with
  | nil => rfl
  | cons spec specs ih =>
      rw [List.length_cons, List.range_succ_eq_map, List.flatMap_cons, List.flatMap_map,
        List.flatMap_cons, ← ih]
      rfl

/-- Binding distributes over the workers. -/
theorem sum_bind {ι α β : Type} [Fintype ι] (f : ι → Multiset α) (g : α → Multiset β) :
    (∑ i, f i).bind g = ∑ i, (f i).bind g :=
  map_sum (⟨⟨fun s => s.bind g, Multiset.zero_bind g⟩, fun s t => Multiset.add_bind s t g⟩ :
    Multiset α →+ Multiset β) f Finset.univ

/-- In a finished scan the workers have opened every partition and returned every row. -/
theorem Inv.finished {rowsOf : π → List ρ} {partitions : List π} {target workers : Nat}
    {w : World (workers + 1) π ρ} (hw : Inv rowsOf partitions target w) (hdone : Finished w) :
    ∑ i, ((w.localState i).opened : Multiset Nat) = Multiset.range partitions.length ∧
      emitted w = (partitions.flatMap rowsOf : Multiset ρ) := by
  have hindex : w.globalState.nextPartition = partitions.length :=
    Nat.le_antisymm hw.queue.index_le ((hw.worker 0).drained (hdone 0)).1
  have hopened := hw.opened_once
  rw [hindex] at hopened
  refine ⟨hopened, ?_⟩
  have hworker : ∀ i, ((w.localState i).chunks.flatten : Multiset ρ) =
      ((w.localState i).opened : Multiset Nat).bind fun k => (rowsAt rowsOf partitions k : Multiset ρ) := by
    intro i
    have horder := (hw.worker i).rows_in_order
    obtain ⟨-, hcursor, hchunk⟩ := (hw.worker i).drained (hdone i)
    rw [hcursor, hchunk, Option.getD_none, List.append_nil, List.append_nil] at horder
    rw [horder, Multiset.coe_bind]
  calc emitted w
      = ∑ i, ((w.localState i).opened : Multiset Nat).bind
          fun k => (rowsAt rowsOf partitions k : Multiset ρ) :=
        Finset.sum_congr rfl fun i _ => hworker i
    _ = (Multiset.range partitions.length).bind fun k => (rowsAt rowsOf partitions k : Multiset ρ) := by
        rw [← sum_bind, hopened]
    _ = (partitions.flatMap rowsOf : Multiset ρ) := by
        rw [← range_flatMap_rowsAt, ← Multiset.coe_bind]
        rfl

/-- **Workers neither lose nor duplicate rows**, whatever the schedule. In every state reached, each
    partition before the queue index is opened by one worker, once, and no other is opened; what a worker
    has returned, with what its call and its cursor still hold, is the rows of its partitions, one partition
    after the other and each in cursor order; and a worker that has returned an empty chunk met an exhausted
    queue with its own cursor drained. When every worker has, all partitions are opened and the rows of all
    chunks are the rows of all partitions. -/
theorem run_delivers_every_row (rowsOf : π → List ρ) (movedFrom : π) {target : Nat}
    (htarget : 0 < target) (partitions : List π) {workers : Nat} (schedule : List (Fin (workers + 1))) :
    Inv rowsOf partitions target (reached rowsOf movedFrom target partitions schedule) ∧
    (Finished (reached rowsOf movedFrom target partitions schedule) →
      ∑ i, (((reached rowsOf movedFrom target partitions schedule).localState i).opened : Multiset Nat) =
        Multiset.range partitions.length ∧
      emitted (reached rowsOf movedFrom target partitions schedule) =
        (partitions.flatMap rowsOf : Multiset ρ)) := by
  have hw := run_inv rowsOf movedFrom htarget partitions schedule
  exact ⟨hw, hw.finished⟩

/-- Two workers on three partitions, the second of them empty, in chunks of two rows. The second worker
    chains the last two partitions while the first is in the middle of its own. -/
def twoWorkers : World (1 + 1) (List Nat) Nat :=
  reached id [] 2 [[10, 11], [], [12]] [0, 0, 0, 1, 1, 1, 1, 1, 1, 1, 0, 0, 0, 0, 0, 1, 1]

theorem run_delivers_every_row_twoWorkers :
    0 < 2 ∧ Finished twoWorkers ∧ emitted twoWorkers = {10, 11, 12} := by
  have hdone : Finished twoWorkers := by
    unfold Finished
    decide
  exact ⟨by decide, hdone, ((run_delivers_every_row id [] (by decide) _ _).2 hdone).2⟩

end Workers
end FirebirdScan
