import FirebirdScan.Lib.Run
import Mathlib.Algebra.BigOperators.Group.List.Basic
import Mathlib.Algebra.Group.Pi.Basic

/-!
# `Lib.Tasks` — tasks over a shared state

Any number of tasks share one state and take turns, in any order. A move lets a task begin, lets a task act, or
lets the outside change the shared state.

What a task owns is a value of a commutative monoid: numbers that count, multisets of what is held. The rule is
`Frames.run`, a frame rule: an invariant of the shared state and the total of what is owned holds in every run,
if each act preserves it whatever the other tasks own.
-/

namespace Tasks

open Run

variable {σ τ ι κ ε M : Type}

/-- The shared state, and the tasks in the order in which they began. -/
structure World (σ τ : Type) where
  shared : σ
  tasks : List τ := []

/-- How tasks begin, how they act on the shared state, and what happens to it from outside. -/
structure Program (σ τ ι κ ε : Type) where
  start : κ → τ
  act : σ → τ → ι → σ × τ
  outside : σ → ε → σ

inductive Move (ι κ ε : Type) where
  | start (kind : κ)
  | act (i : Nat) (input : ι)
  | outside (event : ε)

namespace Program

variable (p : Program σ τ ι κ ε)

def step (w : World σ τ) : Move ι κ ε → World σ τ
  | .start kind => { w with tasks := w.tasks ++ [p.start kind] }
  | .act i input =>
      match w.tasks[i]? with
      | none => w
      | some task =>
          { shared := (p.act w.shared task input).1, tasks := w.tasks.set i (p.act w.shared task input).2 }
  | .outside event => { w with shared := p.outside w.shared event }

/-- A task acts. -/
theorem step_act {w : World σ τ} {i : Nat} {task : τ} (h : w.tasks[i]? = some task) (input : ι) :
    p.step w (.act i input) =
      { shared := (p.act w.shared task input).1, tasks := w.tasks.set i (p.act w.shared task input).2 } := by
  simp only [step, h]

theorem step_act_none {w : World σ τ} {i : Nat} (h : w.tasks[i]? = none) (input : ι) :
    p.step w (.act i input) = w := by
  simp only [step, h]

/-- What a step does to the shared state. -/
theorem step_shared (w : World σ τ) (move : Move ι κ ε) :
    (p.step w move).shared = w.shared ∨ (∃ event, (p.step w move).shared = p.outside w.shared event) ∨
      ∃ task ∈ w.tasks, ∃ input, (p.step w move).shared = (p.act w.shared task input).1 := by
  cases move with
  | start kind => exact .inl rfl
  | outside event => exact .inr (.inl ⟨event, rfl⟩)
  | act i input =>
      rcases htask : w.tasks[i]? with _ | task
      · exact .inl (by rw [p.step_act_none htask])
      · exact .inr (.inr ⟨task, List.mem_of_getElem? htask, input, by rw [p.step_act htask]⟩)

/-- Where a task comes from: it was there before the step, it begins with it, or it acts in it. -/
theorem step_task {w : World σ τ} {move : Move ι κ ε} {i : Nat} {task : τ}
    (h : (p.step w move).tasks[i]? = some task) :
    w.tasks[i]? = some task ∨ (∃ kind, task = p.start kind) ∨
      ∃ before input, w.tasks[i]? = some before ∧ task = (p.act w.shared before input).2 := by
  cases move with
  | start kind =>
      rw [show (p.step w (.start kind)).tasks = w.tasks ++ [p.start kind] from rfl, List.getElem?_append] at h
      split_ifs at h with hlt
      · exact .inl h
      · exact .inr (.inl ⟨kind, List.mem_singleton.mp (List.mem_of_getElem? h)⟩)
  | outside event => exact .inl h
  | act j input =>
      rcases htask : w.tasks[j]? with _ | before
      · rw [p.step_act_none htask] at h
        exact .inl h
      · rw [p.step_act htask] at h
        by_cases hij : j = i
        · subst hij
          obtain ⟨hlt, -⟩ := List.getElem?_eq_some_iff.mp htask
          rw [List.getElem?_set_self hlt] at h
          exact .inr (.inr ⟨before, input, htask, (Option.some.inj h).symm⟩)
        · rw [List.getElem?_set_ne hij] at h
          exact .inl h

/-- What a task keeps whatever it does, all tasks keep in every run. -/
theorem forall_tasks {p : Program σ τ ι κ ε} {inv : τ → Prop} (hstart : ∀ kind, inv (p.start kind))
    (hact : ∀ s task input, inv task → inv (p.act s task input).2) {w : World σ τ}
    (hw : ∀ task ∈ w.tasks, inv task) (moves : List (Move ι κ ε)) :
    ∀ task ∈ (run p.step w moves).tasks, inv task := by
  refine @run_invariant _ _ p.step (fun _ _ => True) (fun w => ∀ task ∈ w.tasks, inv task) ?_ moves w hw
    (Meets.always p.step w)
  intro w move hw _ task htask
  obtain ⟨i, hi⟩ := List.mem_iff_getElem?.mp htask
  rcases p.step_task hi with hold | ⟨kind, rfl⟩ | ⟨before, input, hbefore, rfl⟩
  · exact hw task (List.mem_of_getElem? hold)
  · exact hstart kind
  · exact hact w.shared before input (hw before (List.mem_of_getElem? hbefore))

end Program

/-! ## What the tasks own -/

section

variable [AddCommMonoid M] (owned : τ → M)

/-- What the tasks own together. -/
def total (tasks : List τ) : M := (tasks.map owned).sum

@[simp] theorem total_nil : total owned [] = 0 := rfl

@[simp] theorem total_cons (task : τ) (tasks : List τ) :
    total owned (task :: tasks) = owned task + total owned tasks := List.sum_cons

theorem total_concat (tasks : List τ) (task : τ) :
    total owned (tasks ++ [task]) = total owned tasks + owned task := by
  rw [total, List.map_append, List.sum_append, List.map_singleton, List.sum_singleton]
  rfl

/-- Where what is owned has components, so has the total. -/
theorem total_apply {ι : Type} (owned : τ → ι → M) (tasks : List τ) (i : ι) :
    total owned tasks i = total (fun task => owned task i) tasks := by
  induction tasks with
  | nil => rfl
  | cons task tasks ih =>
      rw [total_cons, total_cons, ← ih]
      rfl

theorem total_eq_zero {tasks : List τ} (h : ∀ task ∈ tasks, owned task = 0) : total owned tasks = 0 := by
  induction tasks with
  | nil => rfl
  | cons task tasks ih =>
      obtain ⟨htask, htasks⟩ := List.forall_mem_cons.mp h
      rw [total_cons, htask, ih htasks, add_zero]

/-- **The frame**: what the others own stays the same when one task is replaced. -/
theorem total_set {tasks : List τ} {i : Nat} {task : τ} (h : tasks[i]? = some task) :
    ∃ frame, total owned tasks = owned task + frame ∧
      ∀ task', total owned (tasks.set i task') = owned task' + frame := by
  induction tasks generalizing i with
  | nil => cases h
  | cons head tasks ih =>
      cases i with
      | zero =>
          obtain rfl : head = task := Option.some.inj h
          exact ⟨total owned tasks, total_cons owned head tasks, fun task' => total_cons owned task' tasks⟩
      | succ i =>
          obtain ⟨frame, htotal, hset⟩ := ih (i := i) h
          refine ⟨owned head + frame, ?_, fun task' => ?_⟩
          · rw [total_cons, htotal, add_left_comm]
          · rw [List.set_cons_succ, total_cons, hset, add_left_comm]

variable {owned}

/-- What a step does to the shared state and to what the tasks own together. -/
theorem step_total {p : Program σ τ ι κ ε} (hstart : ∀ kind, owned (p.start kind) = 0) (w : World σ τ)
    (move : Move ι κ ε) :
    ((p.step w move).shared = w.shared ∧ total owned (p.step w move).tasks = total owned w.tasks) ∨
      (∃ event, (p.step w move).shared = p.outside w.shared event ∧
        total owned (p.step w move).tasks = total owned w.tasks) ∨
      ∃ i task input frame, move = .act i input ∧ w.tasks[i]? = some task ∧
        total owned w.tasks = owned task + frame ∧
        (p.step w move).shared = (p.act w.shared task input).1 ∧
        total owned (p.step w move).tasks = owned (p.act w.shared task input).2 + frame := by
  cases move with
  | start kind =>
      refine .inl ⟨rfl, ?_⟩
      show total owned (w.tasks ++ [p.start kind]) = _
      rw [total_concat, hstart, add_zero]
  | outside event => exact .inr (.inl ⟨event, rfl, rfl⟩)
  | act i input =>
      rcases htask : w.tasks[i]? with _ | task
      · rw [p.step_act_none htask]
        exact .inl ⟨rfl, rfl⟩
      · obtain ⟨frame, htotal, hset⟩ := total_set owned htask
        rw [p.step_act htask]
        exact .inr (.inr ⟨i, task, input, frame, rfl, htask, htotal, rfl, hset _⟩)

variable (owned)

/-- Each act preserves `inv` of the shared state and what is owned, for any frame. -/
structure Frames (p : Program σ τ ι κ ε) (inv : σ → M → Prop) : Prop where
  start : ∀ kind, owned (p.start kind) = 0
  act : ∀ s task input frame, inv s (owned task + frame) →
    inv (p.act s task input).1 (owned (p.act s task input).2 + frame)
  outside : ∀ s event m, inv s m → inv (p.outside s event) m

/-- The same where an act may rely on what its task keeps: `good` holds of every task, and an act preserves it. -/
structure GuardedFrames (p : Program σ τ ι κ ε) (good : τ → Prop) (inv : σ → M → Prop) : Prop where
  start : ∀ kind, owned (p.start kind) = 0
  good_start : ∀ kind, good (p.start kind)
  good_act : ∀ s task input, good task → good (p.act s task input).2
  act : ∀ s task input frame, good task → inv s (owned task + frame) →
    inv (p.act s task input).1 (owned (p.act s task input).2 + frame)
  outside : ∀ s event m, inv s m → inv (p.outside s event) m

variable {owned}

theorem GuardedFrames.step {p : Program σ τ ι κ ε} {good : τ → Prop} {inv : σ → M → Prop}
    (h : GuardedFrames owned p good inv) (w : World σ τ) (move : Move ι κ ε) (hgood : ∀ task ∈ w.tasks, good task)
    (hinv : inv w.shared (total owned w.tasks)) :
    inv (p.step w move).shared (total owned (p.step w move).tasks) := by
  rcases step_total h.start w move with ⟨hshared, htotal⟩ | ⟨event, hshared, htotal⟩ |
    ⟨i, task, input, frame, -, htask, hbefore, hshared, hafter⟩
  · rw [hshared, htotal]
    exact hinv
  · rw [hshared, htotal]
    exact h.outside w.shared event _ hinv
  · rw [hshared, hafter]
    rw [hbefore] at hinv
    exact h.act w.shared task input frame (hgood task (List.mem_of_getElem? htask)) hinv

/-- **The frame rule.** -/
theorem GuardedFrames.run {p : Program σ τ ι κ ε} {good : τ → Prop} {inv : σ → M → Prop}
    (h : GuardedFrames owned p good inv) {w : World σ τ} (hgood : ∀ task ∈ w.tasks, good task)
    (hinv : inv w.shared (total owned w.tasks)) (moves : List (Move ι κ ε)) :
    inv (run p.step w moves).shared (total owned (run p.step w moves).tasks) := by
  refine (@run_invariant _ _ p.step (fun _ _ => True)
    (fun w => (∀ task ∈ w.tasks, good task) ∧ inv w.shared (total owned w.tasks)) ?_ moves w ⟨hgood, hinv⟩
    (Meets.always p.step w)).2
  rintro w move ⟨hgood, hinv⟩ -
  exact ⟨Program.forall_tasks h.good_start h.good_act hgood [move], h.step w move hgood hinv⟩

/-- Acts that rely on nothing. -/
theorem Frames.guarded {p : Program σ τ ι κ ε} {inv : σ → M → Prop} (h : Frames owned p inv) :
    GuardedFrames owned p (fun _ => True) inv where
  start := h.start
  good_start _ := trivial
  good_act _ _ _ _ := trivial
  act s task input frame _ := h.act s task input frame
  outside := h.outside

theorem Frames.step {p : Program σ τ ι κ ε} {inv : σ → M → Prop} (h : Frames owned p inv) (w : World σ τ)
    (move : Move ι κ ε) (hinv : inv w.shared (total owned w.tasks)) :
    inv (p.step w move).shared (total owned (p.step w move).tasks) :=
  h.guarded.step w move (fun _ _ => trivial) hinv

theorem Frames.run {p : Program σ τ ι κ ε} {inv : σ → M → Prop} (h : Frames owned p inv) {w : World σ τ}
    (hinv : inv w.shared (total owned w.tasks)) (moves : List (Move ι κ ε)) :
    inv (run p.step w moves).shared (total owned (run p.step w moves).tasks) :=
  h.guarded.run (fun _ _ => trivial) hinv moves

end

/-- Counting is a total. -/
theorem total_ite (q : τ → Bool) (tasks : List τ) :
    total (fun task => if q task then 1 else 0) tasks = tasks.countP q := by
  induction tasks with
  | nil => rfl
  | cons task tasks ih => rw [total_cons, ih, List.countP_cons, add_comm]

end Tasks
