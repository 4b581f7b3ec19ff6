import FirebirdScan.Lib.Run
import Mathlib.Data.List.ModifyLast
import Mathlib.Data.List.Infix

/-!
# `Lib.RingLog` — a bounded log whose newest entry can still change

A `Log` holds the entry that is being worked on, and a log of the newest entries, oldest first. To push an entry
makes it the current one and appends it to the log, which is then cut to a size given with the push; to amend is to
change the current entry and its copy at the end of the log. The sizes may differ from push to push.

What a ring is for is said by `record`: it keeps everything that was ever pushed, and amends its last entry. A ring's
log is the end of that list (`Coherent.suffix`), as long as the sizes left room for (`length_run`), its newest entry is
the current one (`Coherent.newest`), and what is not the last entry of the list never changes (`frozen`).
-/

namespace RingLog

variable {α : Type}

/-- The current entry, and the log with the newest entry at its end. -/
structure Log (α : Type) where
  last : α
  log : List α

/-- The two operations. -/
inductive Op (α : Type) where
  | push (a : α) (size : Nat)
  | amend (f : α → α)

def Log.apply (r : Log α) : Op α → Log α
  | .push a size =>
      let log := r.log ++ [a]
      { last := a, log := log.drop (log.length - size) }
  | .amend f => { last := f r.last, log := r.log.modifyLast f }

/-- Everything that was ever pushed, as it was amended. -/
def record (entries : List α) : Op α → List α
  | .push a _ => entries ++ [a]
  | .amend f => entries.modifyLast f

/-- The size that the last push gave. -/
def lastSize (size : Nat) : Op α → Nat
  | .push _ size' => size'
  | .amend _ => size

/-- The length a log of `length` entries is to have next: one more with each push, up to its size. -/
def nextLength (length : Nat) : Op α → Nat
  | .push _ size => min (length + 1) size
  | .amend _ => length

/-! ## Changing the last entry -/

theorem modifyLast_eq (f : α → α) (l : List α) :
    l = [] ∨ ∃ init a, l = init ++ [a] ∧ l.modifyLast f = init ++ [f a] := by
  rcases List.eq_nil_or_concat l with rfl | ⟨init, a, rfl⟩
  · exact .inl rfl
  · exact .inr ⟨init, a, List.concat_eq_append, by rw [List.concat_eq_append, List.modifyLast_concat]⟩

@[simp] theorem modifyLast_nil (f : α → α) : ([] : List α).modifyLast f = [] := rfl

@[simp] theorem length_modifyLast (f : α → α) (l : List α) : (l.modifyLast f).length = l.length := by
  rcases modifyLast_eq f l with rfl | ⟨init, a, rfl, h⟩
  · rfl
  · rw [h, List.length_append, List.length_append]
    rfl

/-- The older entries do not change. -/
@[simp] theorem dropLast_modifyLast (f : α → α) (l : List α) : (l.modifyLast f).dropLast = l.dropLast := by
  rcases modifyLast_eq f l with rfl | ⟨init, a, rfl, h⟩
  · rfl
  · rw [h, List.dropLast_concat, List.dropLast_concat]

theorem getLast?_modifyLast (f : α → α) (l : List α) : (l.modifyLast f).getLast? = l.getLast?.map f := by
  rcases modifyLast_eq f l with rfl | ⟨init, a, rfl, h⟩
  · rfl
  · rw [h, List.getLast?_concat, List.getLast?_concat]
    rfl

theorem modifyLast_suffix (f : α → α) {l entries : List α} (h : l <:+ entries) :
    l.modifyLast f <:+ entries.modifyLast f := by
  obtain ⟨front, rfl⟩ := h
  by_cases hnil : l = []
  · subst hnil
    exact List.nil_suffix
  · rw [List.modifyLast_append_of_right_ne_nil f front l hnil]
    exact List.suffix_append front _

/-- Two changes that agree on the last entry change a list alike. -/
theorem modifyLast_congr {f g : α → α} {l : List α} (h : ∀ a ∈ l.getLast?, f a = g a) :
    l.modifyLast f = l.modifyLast g := by
  rcases modifyLast_eq f l with rfl | ⟨init, a, rfl, hf⟩
  · rfl
  · rw [hf, List.modifyLast_concat, h a (List.getLast?_concat)]

/-! ## The log and the record -/

/-- The log is the end of the record, and the newest entry of both is the current one. -/
structure Coherent (entries : List α) (r : Log α) : Prop where
  suffix : r.log <:+ entries
  newest : ∀ a ∈ r.log.getLast?, a = r.last
  current : ∀ a ∈ entries.getLast?, a = r.last

theorem Coherent.empty (last : α) : Coherent [] (Log.mk last []) := ⟨List.nil_suffix, nofun, nofun⟩

/-- **One operation keeps the log the end of the record.** -/
theorem Coherent.apply {entries : List α} {r : Log α} (h : Coherent entries r) (op : Op α) :
    Coherent (record entries op) (r.apply op) := by
  cases op with
  | push a size =>
      -- the oldest entries go, which leaves an end of the record
      have hpushed : r.log ++ [a] <:+ entries ++ [a] := by
        obtain ⟨front, hfront⟩ := h.suffix
        exact ⟨front, by rw [← List.append_assoc, hfront]⟩
      refine ⟨(List.drop_suffix _ _).trans hpushed, ?_, ?_⟩
      · intro newest hnewest
        change newest ∈ ((r.log ++ [a]).drop _).getLast? at hnewest
        rw [List.getLast?_drop] at hnewest
        split_ifs at hnewest
        · cases hnewest
        · rw [List.getLast?_concat] at hnewest
          exact (Option.mem_some_iff.mp hnewest).symm
      · intro newest hnewest
        change newest ∈ (entries ++ [a]).getLast? at hnewest
        rw [List.getLast?_concat] at hnewest
        exact (Option.mem_some_iff.mp hnewest).symm
  | amend f =>
      have hlast {l : List α} (hl : ∀ a ∈ l.getLast?, a = r.last) : ∀ a ∈ (l.modifyLast f).getLast?, a = f r.last := by
        intro a ha
        rw [getLast?_modifyLast] at ha
        obtain ⟨b, hb, rfl⟩ := Option.map_eq_some_iff.mp ha
        rw [hl b hb]
      exact ⟨modifyLast_suffix f h.suffix, hlast h.newest, hlast h.current⟩

/-- Nothing goes that there is room for. -/
theorem length_apply (r : Log α) (op : Op α) : (r.apply op).log.length = nextLength r.log.length op := by
  cases op with
  | push a size =>
      show ((r.log ++ [a]).drop ((r.log ++ [a]).length - size)).length = min (r.log.length + 1) size
      rw [List.length_drop, List.length_append, List.length_singleton]
      omega
  | amend f => exact length_modifyLast f r.log

/-- The log is no longer than the size of the last push. -/
theorem apply_bounded {size : Nat} {r : Log α} (h : r.log.length ≤ size) (op : Op α) :
    (r.apply op).log.length ≤ lastSize size op := by
  rw [length_apply]
  cases op with
  | push a size' => exact Nat.min_le_right _ _
  | amend f => exact h

/-- Runs of operations, on a ring and on its record. -/
theorem Coherent.run {entries : List α} {r : Log α} (h : Coherent entries r) (ops : List (Op α)) :
    Coherent (Run.run record entries ops) (Run.run Log.apply r ops) :=
  @Run.run_simulation _ _ _ record Log.apply Coherent (fun _ _ op h => h.apply op) ops entries r h

theorem run_bounded {size : Nat} {r : Log α} (h : r.log.length ≤ size) (ops : List (Op α)) :
    (Run.run Log.apply r ops).log.length ≤ Run.run lastSize size ops :=
  @Run.run_simulation _ _ _ Log.apply lastSize (fun r size => r.log.length ≤ size)
    (fun _ _ op h => apply_bounded h op) ops r size h

theorem length_run (r : Log α) (ops : List (Op α)) :
    (Run.run Log.apply r ops).log.length = Run.run nextLength r.log.length ops :=
  @Run.run_simulation _ _ _ Log.apply nextLength (fun r n => r.log.length = n)
    (fun r _ op h => h ▸ length_apply r op) ops r _ rfl

/-- The log, newest entry first, is as much of the record as it has room for. -/
theorem Coherent.reverse {entries : List α} {r : Log α} (h : Coherent entries r) :
    r.log.reverse = entries.reverse.take r.log.length := by
  obtain ⟨front, rfl⟩ := h.suffix
  rw [List.reverse_append, ← List.length_reverse, List.take_left]

/-! ## Frozen entries -/

theorem dropLast_prefix_record (entries : List α) (op : Op α) : entries.dropLast <+: (record entries op).dropLast := by
  cases op with
  | push a size =>
      show entries.dropLast <+: (entries ++ [a]).dropLast
      rw [List.dropLast_concat]
      exact List.dropLast_prefix entries
  | amend f =>
      show entries.dropLast <+: (entries.modifyLast f).dropLast
      rw [dropLast_modifyLast]

/-- **What is not the last entry never changes again.** -/
theorem frozen (entries : List α) (ops : List (Op α)) : entries.dropLast <+: Run.run record entries ops := by
  have hrun : entries.dropLast <+: (Run.run record entries ops).dropLast := by
    refine @Run.run_invariant _ _ record (fun _ _ => True) (fun later => entries.dropLast <+: later.dropLast) ?_ ops
      entries List.prefix_rfl (.always _ _)
    intro later op h _
    exact h.trans (dropLast_prefix_record later op)
  exact hrun.trans (List.dropLast_prefix _)

end RingLog
