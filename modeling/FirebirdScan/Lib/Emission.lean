import Mathlib.Data.List.Basic
import Mathlib.Tactic.SplitIfs

/-!
# `Lib.Emission` — a result that is handed out in chunks

A producer that has its whole result hands it out by calls, each of which returns at most `size` rows. Its state is the
result and a cursor into it (`Cursor`), and a call is a loop over the rows that are left (`fill`). The reader calls until
a chunk is empty.

`calls_eq` gives the chunks of any number of calls in closed form. From it, `delivers_calls`: the chunks are the result in
order, without a gap and without a repetition, no chunk is empty before the last row was handed out, and every one is
from then on. A reader that stops at an empty chunk loses nothing (`flatten_taken_calls`).

`handOut` is a producer of one chunk, which is made by the call that hands it out, and may fail.
-/

namespace Emission

variable {ρ : Type*}

/-- The state of the producer. -/
structure Cursor (ρ : Type*) where
  rows : List ρ
  position : Nat := 0

/-- The loop of a call, with room for so many rows in its chunk. -/
def fill : Nat → Cursor ρ → List ρ × Cursor ρ
  | 0, c => ([], c)
  | room + 1, c =>
      match c.rows[c.position]? with
      | none => ([], c)
      | some row =>
          let rest := fill room { c with position := c.position + 1 }
          (row :: rest.1, rest.2)

/-- The chunks of the first calls. -/
def calls (size : Nat) : Nat → Cursor ρ → List (List ρ)
  | 0, _ => []
  | n + 1, c => (fill size c).1 :: calls size n (fill size c).2

/-- What the reader takes: it stops at the first empty chunk. -/
def taken (chunks : List (List ρ)) : List (List ρ) := chunks.takeWhile fun chunk => !chunk.isEmpty

/-- The chunks hand out the rows. -/
structure Delivers (size : Nat) (rows : List ρ) (chunks : List (List ρ)) : Prop where
  sized : ∀ chunk ∈ chunks, chunk.length ≤ size
  in_order : chunks.flatten = rows.take (chunks.length * size)
  /-- a chunk is empty exactly if the earlier ones have had all rows -/
  ends : ∀ k (hk : k < chunks.length), chunks[k] = [] ↔ rows.length ≤ k * size

/-- A call returns the rows behind the cursor, and moves it behind them. -/
theorem fill_eq (room : Nat) (c : Cursor ρ) :
    fill room c =
      ((c.rows.drop c.position).take room, { c with position := c.position + ((c.rows.drop c.position).take room).length }) := by
  induction room generalizing c with
  | zero => rfl
  | succ room ih =>
      unfold fill
      cases hrow : c.rows[c.position]? with
      | none =>
          have hend : c.rows.drop c.position = [] := List.drop_eq_nil_of_le (List.getElem?_eq_none_iff.mp hrow)
          simp only [hend, List.take_nil, List.length_nil, Nat.add_zero]
      | some row =>
          obtain ⟨hlt, hget⟩ := List.getElem?_eq_some_iff.mp hrow
          dsimp only
          rw [ih]
          simp only [List.drop_eq_getElem_cons hlt, hget, List.take_succ_cons, List.length_cons, Prod.mk.injEq, true_and]
          congr 1
          omega

/-- Where a call leaves the cursor, the same rows are left as `size` rows further on. -/
theorem drop_fill (size : Nat) (c : Cursor ρ) :
    (fill size c).2.rows.drop (fill size c).2.position = c.rows.drop (c.position + size) := by
  rw [fill_eq]
  dsimp only
  rw [← List.drop_drop, ← List.drop_drop, List.length_take]
  rcases Nat.le_total size (c.rows.drop c.position).length with h | h
  · rw [Nat.min_eq_left h]
  · rw [Nat.min_eq_right h, List.drop_length, List.drop_eq_nil_of_le h]

/-- **The chunks.** Each is the next `size` rows. -/
theorem calls_eq (size n : Nat) (c : Cursor ρ) :
    calls size n c = (List.range n).map fun k => (c.rows.drop (c.position + k * size)).take size := by
  induction n generalizing c with
  | zero => rfl
  | succ n ih =>
      unfold calls
      rw [ih, List.range_succ_eq_map, List.map_cons, List.map_map]
      refine congrArg₂ _ ?_ (List.map_congr_left ?_)
      · rw [fill_eq, Nat.zero_mul, Nat.add_zero]
      · intro k _
        rw [← List.drop_drop, drop_fill, List.drop_drop, Function.comp_apply]
        congr 2
        rw [Nat.succ_mul]
        omega

theorem length_calls (size n : Nat) (c : Cursor ρ) : (calls size n c).length = n := by
  rw [calls_eq, List.length_map, List.length_range]

/-- One chunk after another. -/
theorem flatten_calls (size n : Nat) (c : Cursor ρ) :
    (calls size n c).flatten = (c.rows.drop c.position).take (n * size) := by
  induction n generalizing c with
  | zero => simp [calls]
  | succ n ih =>
      unfold calls
      rw [List.flatten_cons, ih, drop_fill, fill_eq, ← List.drop_drop, Nat.succ_mul, Nat.add_comm (n * size),
        List.take_add]

/-- **A result from its start.** -/
theorem delivers_calls {size : Nat} (hsize : 0 < size) (n : Nat) (rows : List ρ) :
    Delivers size rows (calls size n { rows }) := by
  refine ⟨?_, ?_, ?_⟩
  · intro chunk hchunk
    rw [calls_eq] at hchunk
    obtain ⟨k, -, rfl⟩ := List.mem_map.mp hchunk
    exact List.length_take_le _ _
  · rw [length_calls, flatten_calls]
    rfl
  · intro k hk
    have hchunk : (calls size n { rows : Cursor ρ })[k] = (rows.drop (k * size)).take size := by
      simp only [calls_eq, List.getElem_map, List.getElem_range, Nat.zero_add]
    rw [hchunk, List.take_eq_nil_iff, List.drop_eq_nil_iff]
    exact or_iff_right (Nat.ne_of_gt hsize)

namespace Delivers

variable {size : Nat} {rows : List ρ} {chunks : List (List ρ)}

/-- Enough calls hand out everything. -/
theorem flatten_eq (h : Delivers size rows chunks) (henough : rows.length ≤ chunks.length * size) :
    chunks.flatten = rows := by
  rw [h.in_order, List.take_of_length_le henough]

/-- Behind an empty chunk there are only empty ones. -/
theorem pairwise_empty (h : Delivers size rows chunks) : chunks.Pairwise fun chunk later => chunk = [] → later = [] := by
  rw [List.pairwise_iff_getElem]
  intro i j hi hj hlt hempty
  rw [h.ends j hj]
  exact Nat.le_trans ((h.ends i hi).mp hempty) (Nat.mul_le_mul_right size (Nat.le_of_lt hlt))

/-- The reader loses nothing by stopping at the first empty chunk. -/
theorem flatten_taken (h : Delivers size rows chunks) : (taken chunks).flatten = chunks.flatten := by
  have hempty := h.pairwise_empty
  clear h
  unfold taken
  induction chunks with
  | nil => rfl
  | cons chunk chunks ih =>
      obtain ⟨hlater, hrest⟩ := List.pairwise_cons.mp hempty
      cases chunk with
      | nil =>
          have hnone : chunks.flatten = [] := List.flatten_eq_nil_iff.mpr fun later hmem => hlater later hmem rfl
          rw [List.flatten_cons, hnone]
          rfl
      | cons row chunk =>
          rw [List.takeWhile_cons_of_pos rfl, List.flatten_cons, List.flatten_cons, ih hrest]

end Delivers

/-! ## One chunk -/

section HandOut

variable {ε χ : Type*}

/-- A producer of one chunk, over calls. A flag says whether the chunk was handed out, after which chunks are empty; an
    attempt that fails leaves it to the next call. -/
def handOut (make : ε → Except χ (List ρ)) : Bool → List ε → List (Except χ (List ρ))
  | _, [] => []
  | true, _ :: es => .ok [] :: handOut make true es
  | false, e :: es =>
      match make e with
      | .ok chunk => .ok chunk :: handOut make true es
      | .error x => .error x :: handOut make false es

variable {make : ε → Except χ (List ρ)}

theorem handOut_emitted (es : List ε) : handOut make true es = es.map fun _ => .ok [] := by
  induction es with
  | nil => rfl
  | cons e es ih => rw [handOut, ih, List.map_cons]

/-- The chunk was handed out once, by the first attempt that did not fail; or every attempt has failed. -/
inductive HandsOut (make : ε → Except χ (List ρ)) : List ε → List (Except χ (List ρ)) → Prop
  | never {es : List ε} : (∀ e ∈ es, ∃ x, make e = .error x) → HandsOut make es (es.map make)
  | once {before after : List ε} {e : ε} {chunk : List ρ} : (∀ e ∈ before, ∃ x, make e = .error x) →
      make e = .ok chunk →
      HandsOut make (before ++ e :: after) (before.map make ++ .ok chunk :: after.map fun _ => .ok [])

theorem handsOut_handOut (es : List ε) : HandsOut make es (handOut make false es) := by
  induction es with
  | nil => exact .never nofun
  | cons e es ih =>
      rw [handOut]
      cases hmake : make e with
      | ok chunk =>
          dsimp only
          rw [handOut_emitted]
          exact .once (List.forall_mem_nil _) hmake
      | error x =>
          dsimp only
          generalize handOut make false es = results at ih ⊢
          cases ih with
          | never h =>
              have hall : HandsOut make (e :: es) ((e :: es).map make) := .never (List.forall_mem_cons.mpr ⟨⟨x, hmake⟩, h⟩)
              rwa [List.map_cons, hmake] at hall
          | @once before after e' chunk hbefore he' =>
              have hall : HandsOut make (e :: before ++ e' :: after)
                  ((e :: before).map make ++ .ok chunk :: after.map fun _ => .ok []) :=
                .once (List.forall_mem_cons.mpr ⟨⟨x, hmake⟩, hbefore⟩) he'
              rwa [List.map_cons, hmake] at hall

end HandOut

/-! ## The reader -/

/-- **A reader that stops at an empty chunk** has the whole result, behind enough calls. -/
theorem flatten_taken_calls {size : Nat} (hsize : 0 < size) {n : Nat} {rows : List ρ} (henough : rows.length ≤ n * size) :
    (taken (calls size n { rows })).flatten = rows := by
  have hdelivers := delivers_calls hsize n rows
  rw [hdelivers.flatten_taken]
  exact hdelivers.flatten_eq (by rwa [length_calls])

end Emission
