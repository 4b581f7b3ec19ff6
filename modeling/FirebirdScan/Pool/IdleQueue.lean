import FirebirdScan.Pool.Leases
import Mathlib.Data.Multiset.UnionInter

/-!
# `Pool.IdleQueue` — what the idle queue is in every run

The invariant has two halves. `QueueOrder` is about the queue alone: its order, its length. `Owned` is about
connections: their numbers are drawn from a counter, and every connection is in one place, in the queue or with
one holder. The frame rule takes each from a step to all runs (`reached_order`, `reached_owned`).

All of it holds whatever the configuration. What an acquire does is another matter: it compares in nanoseconds, of
which a timeout that the settings accept may have more than 64 bits hold (`idle_queue_iff`).
-/

namespace FirebirdScan

open Run Tasks FirebirdConnectionPool

/-! ## What is to be shown -/

/-- The connection that a holder has, on its way in, as a lease, or on its way back. -/
def Stage.conn : Stage → Option FirebirdConnection
  | .built conn | .counted conn | .park conn => some conn
  | .holding lease => some lease.conn
  | .acquire | .overflow | .construct | .finished | .failed _ | .dropped _ => none

/-- The numbers of the connections in the queue. -/
def idleIds (s : Process) : List Nat := s.pool.idle.map fun entry => entry.conn.id

/-- The numbers of the connections that holders have. -/
def heldIds (w : World Process Task) : List Nat :=
  w.tasks.filterMap fun task => task.stage.conn.map FirebirdConnection.id

/-- What holds of the queue. -/
structure IdleQueue (config : FirebirdConnectionPoolConfig) (w : World Process Task) : Prop where
  sorted : Sorted w.shared.pool.idle
  capped : 0 < config.maxSize → (w.shared.pool.idle.length : Int) ≤ config.maxSize
  disabled : config.enabled = false → w.shared.pool.idle = []
  /-- no connection is in the queue twice, with two holders, or in the queue and with a holder -/
  distinct : (idleIds w.shared ++ heldIds w).Nodup

/-- An acquire of task `i` returns a lease. -/
def Returns (w w' : World Process Task) (i : Nat) (lease : FirebirdConnectionLease) : Prop :=
  (∀ task ∈ w.tasks[i]?, task.stage.isLease = false) ∧ ∃ holder, w'.tasks[i]? = some ⟨holder, .holding lease⟩

/-- The lease is of the idle connection that was released last, and that has not been idle for longer than the
    timeout. -/
def MostRecent (config : FirebirdConnectionPoolConfig) (s : Process) (lease : FirebirdConnectionLease) : Prop :=
  ∃ entry, s.pool.idle.getLast? = some entry ∧ lease.conn = entry.conn ∧
    (∀ other ∈ s.pool.idle, other.releasedAt ≤ entry.releasedAt) ∧
    (0 < config.idleTimeoutMs → s.now - entry.releasedAt ≤ config.idleTimeoutMs * 1000000)

/-- An acquire drops the expired entries: it has a meaning, those in front are all there are, and none stays that was
    idle for longer than the timeout. -/
structure Drains (config : FirebirdConnectionPoolConfig) (s : Process) (result : Process × Stage) : Prop where
  computed : result.2 ≠ .overflow
  all_expired : s.pool.idle.dropWhile (overdue config s.now) =
    s.pool.idle.filter fun entry => !overdue config s.now entry
  none_overdue : 0 < config.idleTimeoutMs →
    ∀ entry ∈ s.pool.idle, config.idleTimeoutMs * 1000000 < s.now - entry.releasedAt → entry ∉ result.1.pool.idle

/-- What is asked of the queue in a run: what it is in the state that is reached, which connection a reused lease of the
    next step is of, and what an acquire that is next leaves of it. -/
structure QueueKept (config : FirebirdConnectionPoolConfig) (password : Bytes)
    (moves : List (Move Input Holder Outside)) : Prop where
  queue : IdleQueue config (reached config password moves)
  reuses : ∀ (move : Move Input Holder Outside) (i : Nat) (lease : FirebirdConnectionLease),
    Returns (reached config password moves) ((holders config password).step (reached config password moves) move)
      i lease →
    lease.reused = true → MostRecent config (reached config password moves).shared lease
  drains : ∀ (i : Nat) (holder : Holder), (reached config password moves).tasks[i]? = some ⟨holder, .acquire⟩ →
    config.enabled = true → Drains config (reached config password moves).shared
      ((reached config password moves).shared.act config password holder .acquire .proceed)

/-! ## The order of the queue -/

structure QueueOrder (config : FirebirdConnectionPoolConfig) (s : Process) : Prop where
  sorted : Sorted s.pool.idle
  past : ∀ entry ∈ s.pool.idle, entry.releasedAt ≤ s.now
  capped : 0 < config.maxSize → (s.pool.idle.length : Int) ≤ config.maxSize
  disabled : config.enabled = false → s.pool.idle = []

variable {config : FirebirdConnectionPoolConfig} {password : Bytes}

/-- A part of the queue is in order. -/
theorem QueueOrder.of_sublist {s s' : Process} (h : QueueOrder config s) (hidle : s'.pool.idle.Sublist s.pool.idle)
    (hnow : s.now ≤ s'.now) : QueueOrder config s' where
  sorted := h.sorted.sublist hidle
  past entry hentry := (h.past entry (hidle.subset hentry)).trans hnow
  capped hsize := by
    have hle := hidle.length_le
    have hcapped := h.capped hsize
    omega
  disabled hdisabled := by
    rw [h.disabled hdisabled] at hidle
    exact List.sublist_nil.mp hidle

theorem kept_sublist (s : Process) : (kept config s.now s.pool.idle).Sublist s.pool.idle :=
  (kept_suffix config s.now s.pool.idle).sublist

theorem acts_order {s s' : Process} {holder : Holder} {stage stage' : Stage}
    (h : Acts config s holder stage s' stage') (horder : QueueOrder config s) : QueueOrder config s' := by
  cases h with
  | stays | skipsQueue | overflows | loses | drops => exact horder
  | builds | throws | countsCreated | countsActive | releases | discards =>
      exact horder.of_sublist (List.Sublist.refl _) le_rfl
  | findsNone _ hkept => exact horder.of_sublist (kept_sublist s) le_rfl
  | reuses _ rest entry hkept =>
      apply QueueOrder.of_sublist horder
      · exact (List.sublist_append_left rest [entry]).trans (hkept ▸ kept_sublist s)
      · exact le_rfl
  | parks conn henabled hroom =>
      constructor
      · refine List.pairwise_append.mpr ⟨horder.sorted, List.pairwise_singleton _ _, fun a ha b hb => ?_⟩
        obtain rfl := List.mem_singleton.mp hb
        exact horder.past a ha
      · intro entry hentry
        rcases List.mem_append.mp hentry with hold | hnew
        · exact horder.past entry hold
        · obtain rfl := List.mem_singleton.mp hnew
          exact le_rfl
      · intro hsize
        have hlt := hroom hsize
        show ((s.pool.idle ++ [_]).length : Int) ≤ config.maxSize
        rw [List.length_append, List.length_singleton]
        omega
      · intro hdisabled
        rw [henabled] at hdisabled
        cases hdisabled

theorem order_frames : Frames (fun _ : Task => (0 : Nat)) (holders config password) fun s _ => QueueOrder config s where
  start _ := rfl
  act _ _ _ _ h := acts_order (act_acts config password _ _ _ _) h
  outside s event _ h := by
    cases event with
    | tick nanoseconds =>
        have hlater : s.now ≤ s.now + nanoseconds := Int.le_add_of_nonneg_right (Int.natCast_nonneg nanoseconds)
        exact h.of_sublist (List.Sublist.refl _) hlater
    | connect => exact h.of_sublist (List.Sublist.refl _) le_rfl

variable (config password) in
theorem reached_order (moves : List (Move Input Holder Outside)) :
    QueueOrder config (reached config password moves).shared :=
  order_frames.run (w := { shared := {} })
    ⟨List.Pairwise.nil, nofun, fun h => by show (0 : Int) ≤ _; omega, fun _ => rfl⟩ moves

/-! ## One place for every connection -/

/-- The connections are numbered, and `m` are those that holders have. -/
structure Owned (s : Process) (m : Multiset Nat) : Prop where
  distinct : ((idleIds s : Multiset Nat) + m).Nodup
  drawn : ∀ id ∈ (idleIds s : Multiset Nat) + m, id < s.nextId

def Stage.held (stage : Stage) : Multiset Nat := (stage.conn.map FirebirdConnection.id).elim 0 fun id => {id}

theorem Owned.of_le {s s' : Process} {m m' : Multiset Nat} (h : Owned s m)
    (hle : (idleIds s' : Multiset Nat) + m' ≤ idleIds s + m) (hnext : s.nextId ≤ s'.nextId) : Owned s' m' where
  distinct := Multiset.nodup_of_le hle h.distinct
  drawn id hid := lt_of_lt_of_le (h.drawn id (Multiset.mem_of_le hle hid)) hnext

/-- The numbers of a part of the queue. -/
theorem idleIds_le {s s' : Process} (h : s'.pool.idle.Sublist s.pool.idle) :
    (idleIds s' : Multiset Nat) ≤ idleIds s :=
  Multiset.coe_le.mpr (h.map _).subperm

/-- An entry at the back, and the same connection with a holder. -/
theorem coe_concat (rest : List IdleEntry) (entry : IdleEntry) (frame : Multiset Nat) :
    (((rest ++ [entry]).map fun entry => entry.conn.id : List Nat) : Multiset Nat) + frame =
      ((rest.map fun entry => entry.conn.id : List Nat) : Multiset Nat) + ({entry.conn.id} + frame) := by
  rw [List.map_append, ← Multiset.coe_add, add_assoc]
  rfl

/-- A holder that has no connection any more. -/
theorem held_add_le (stage : Stage) (ids frame : Multiset Nat) : ids + (0 + frame) ≤ ids + (stage.held + frame) := by
  rw [zero_add, ← add_assoc, add_right_comm]
  exact Multiset.le_add_right _ _

theorem acts_owned {s s' : Process} {holder : Holder} {stage stage' : Stage}
    (h : Acts config s holder stage s' stage') (frame : Multiset Nat) (howned : Owned s (stage.held + frame)) :
    Owned s' (stage'.held + frame) := by
  cases h with
  | stays | skipsQueue | overflows | loses => exact howned
  | countsCreated | countsActive | releases => exact howned.of_le le_rfl le_rfl
  | throws => exact howned.of_le le_rfl (Nat.le_succ _)
  | findsNone _ hkept =>
      apply Owned.of_le howned
      · apply add_le_add_left
        exact idleIds_le (kept_sublist s)
      · exact le_rfl
  | reuses _ rest entry hkept =>
      apply Owned.of_le howned
      · -- the entry leaves the queue for the holder
        have hids : ((rest ++ [entry]).map fun entry => entry.conn.id : List Nat).Sublist (idleIds s) :=
          (hkept ▸ kept_sublist s).map _
        show ((rest.map fun entry => entry.conn.id : List Nat) : Multiset Nat) + ({entry.conn.id} + frame) ≤
          (idleIds s : Multiset Nat) + (0 + frame)
        rw [← coe_concat, zero_add]
        exact add_le_add_left (Multiset.coe_le.mpr hids.subperm) frame
      · exact le_rfl
  | builds =>
      -- the new number is above all that were drawn, so it is in no other hands
      obtain ⟨hdistinct, hdrawn⟩ := howned
      have hcons : (idleIds s : Multiset Nat) + ({s.nextId} + frame) =
          s.nextId ::ₘ ((idleIds s : Multiset Nat) + frame) := by
        rw [add_left_comm]
        rfl
      have hold : (idleIds s : Multiset Nat) + (Stage.construct.held + frame) = (idleIds s : Multiset Nat) + frame := by
        rw [show Stage.construct.held = 0 from rfl, zero_add]
      rw [hold] at hdistinct hdrawn
      constructor
      · show ((idleIds s : Multiset Nat) + ({s.nextId} + frame)).Nodup
        rw [hcons, Multiset.nodup_cons]
        exact ⟨fun hmem => lt_irrefl _ (hdrawn _ hmem), hdistinct⟩
      · show ∀ id ∈ (idleIds s : Multiset Nat) + ({s.nextId} + frame), id < s.nextId + 1
        rw [hcons]
        intro id hid
        rcases Multiset.mem_cons.mp hid with rfl | hid
        · exact Nat.lt_succ_self _
        · exact (hdrawn id hid).trans (Nat.lt_succ_self _)
  | drops _ lease => exact howned.of_le (held_add_le (.holding lease) _ _) le_rfl
  | discards conn => exact howned.of_le (held_add_le (.park conn) _ _) le_rfl
  | parks conn =>
      apply Owned.of_le howned
      · have hids := coe_concat s.pool.idle { conn := conn, releasedAt := s.now } frame
        show (_ : Multiset Nat) + (0 + frame) ≤ _ + ({conn.id} + frame)
        rw [zero_add]
        exact hids.le
      · exact le_rfl

theorem owned_frames : Frames (fun task : Task => task.stage.held) (holders config password) Owned where
  start _ := rfl
  act _ _ _ frame h := acts_owned (act_acts config password _ _ _ _) frame h
  outside s event m h := by
    cases event with
    | tick => exact h.of_le le_rfl le_rfl
    | connect => exact h.of_le le_rfl (Nat.le_succ _)

variable (config password) in
theorem reached_owned (moves : List (Move Input Holder Outside)) :
    Owned (reached config password moves).shared
      (total (fun task : Task => task.stage.held) (reached config password moves).tasks) :=
  owned_frames.run (w := { shared := {} }) ⟨Multiset.nodup_zero, nofun⟩ moves

/-- What the holders have together is the list of what they have. -/
theorem total_held (tasks : List Task) :
    total (fun task : Task => task.stage.held) tasks =
      (tasks.filterMap fun task => task.stage.conn.map FirebirdConnection.id : List Nat) := by
  induction tasks with
  | nil => rfl
  | cons task tasks ih =>
      rw [total_cons, ih, List.filterMap_cons, Stage.held]
      rcases task.stage.conn.map FirebirdConnection.id with _ | id
      · exact zero_add _
      · rfl

theorem reached_idleQueue (moves : List (Move Input Holder Outside)) :
    IdleQueue config (reached config password moves) := by
  have horder := reached_order config password moves
  have howned := (reached_owned config password moves).distinct
  rw [total_held, Multiset.coe_add, Multiset.coe_nodup] at howned
  exact ⟨horder.sorted, horder.capped, horder.disabled, howned⟩

/-! ## The acquire -/

/-- A lease comes from the back of the queue, after draining, or from a new connection. -/
theorem returns_cases {w : World Process Task} {move : Move Input Holder Outside} {i : Nat}
    {lease : FirebirdConnectionLease} (h : Returns w ((holders config password).step w move) i lease) :
    (∃ rest entry, config.enabled = true ∧ kept config w.shared.now w.shared.pool.idle = rest ++ [entry] ∧
        lease = { conn := entry.conn, reused := true }) ∨
      ∃ holder conn, w.tasks[i]? = some ⟨holder, .counted conn⟩ ∧ lease = { conn := conn, reused := false } := by
  obtain ⟨hbefore, holder, hafter⟩ := h
  rcases (holders config password).step_task hafter with
    hsame | ⟨kind, hstart⟩ | ⟨⟨holder', stage⟩, input, htask, hact⟩
  · -- a task that does not act had no lease
    have hnone : Stage.isLease (.holding lease) = false := hbefore _ hsame
    cases hnone
  · cases congrArg Task.stage hstart
  · have hnone : stage.isLease = false := hbefore _ htask
    have hstage : Stage.holding lease = (w.shared.act config password holder' stage input).2 :=
      congrArg Task.stage hact
    have hacts := act_acts config password w.shared holder' stage input
    rw [← hstage] at hacts
    generalize (w.shared.act config password holder' stage input).1 = s' at hacts
    cases hacts with
    | stays | loses => cases hnone
    | reuses henabled rest entry hkept => exact .inl ⟨rest, entry, henabled, hkept, rfl⟩
    | countsActive conn => exact .inr ⟨holder', conn, htask, rfl⟩

/-- The last entry that is kept is the last of the queue. -/
theorem getLast?_of_kept {idle rest : List IdleEntry} {now : Int} {entry : IdleEntry}
    (h : kept config now idle = rest ++ [entry]) : idle.getLast? = some entry := by
  obtain ⟨front, hfront⟩ := kept_suffix config now idle
  rw [← hfront, h, ← List.append_assoc, List.getLast?_concat]

/-- The entries that are kept have not expired. -/
theorem not_overdue_of_kept {idle : List IdleEntry} {now : Int} {entry : IdleEntry} (hsorted : Sorted idle)
    (htimeout : 0 < config.idleTimeoutMs) (h : entry ∈ kept config now idle) :
    now - entry.releasedAt ≤ config.idleTimeoutMs * 1000000 := by
  rw [kept_eq_filter hsorted] at h
  have hkept := (List.mem_filter.mp h).2
  by_contra hover
  have hoverdue := (overdue_iff config now).mpr (not_le.mp hover)
  simp [hoverdue, htimeout] at hkept

theorem mostRecent_of_returns {w : World Process Task} (horder : QueueOrder config w.shared)
    {move : Move Input Holder Outside} {i : Nat} {lease : FirebirdConnectionLease}
    (h : Returns w ((holders config password).step w move) i lease) (hreused : lease.reused = true) :
    MostRecent config w.shared lease := by
  rcases returns_cases h with ⟨rest, entry, -, hkept, rfl⟩ | ⟨holder, conn, -, rfl⟩
  · have hlast := getLast?_of_kept hkept
    refine ⟨entry, hlast, rfl, fun other hother => ?_, fun htimeout => ?_⟩
    · obtain ⟨init, hinit⟩ := List.getLast?_eq_some_iff.mp hlast
      have hsorted := horder.sorted
      unfold Sorted at hsorted
      rw [hinit] at hother hsorted
      rcases List.mem_append.mp hother with hold | hself
      · exact (List.pairwise_append.mp hsorted).2.2 other hold entry (List.mem_singleton_self entry)
      · rw [List.mem_singleton.mp hself]
    · apply not_overdue_of_kept horder.sorted htimeout
      rw [hkept]
      exact List.mem_concat_self
  · cases hreused

/-- The timeout fits 64-bit nanoseconds, in a pool that looks at it. -/
def TimeoutFits (config : FirebirdConnectionPoolConfig) : Prop :=
  config.enabled = false ∨ config.idleTimeoutMs * 1000000 < 2 ^ 63

theorem acquire_drains {s : Process} (horder : QueueOrder config s) (henabled : config.enabled = true)
    (hfits : config.idleTimeoutMs * 1000000 < 2 ^ 63) : Drains config s (s.acquire config) := by
  have hcomputed : s.pool.drainExpired config s.now ≠ none := by
    rw [drainExpired_eq, if_neg fun h => absurd hfits (not_lt.mpr h.2.2)]
    exact Option.some_ne_none _
  have hsub : (s.acquire config).2 ≠ .overflow ∧
      (s.acquire config).1.pool.idle.Sublist (kept config s.now s.pool.idle) := by
    rcases acquire_cases s henabled with
      ⟨hnone, -⟩ | ⟨-, ⟨-, hacquire⟩ | ⟨rest, entry, hlast, hacquire⟩⟩
    · exact absurd hnone hcomputed
    · rw [hacquire]
      exact ⟨nofun, List.Sublist.refl _⟩
    · rw [hacquire, hlast]
      exact ⟨nofun, List.sublist_append_left rest [entry]⟩
  refine ⟨hsub.1, dropWhile_eq_filter horder.sorted.overdue_mono, fun htimeout entry hentry hover hmem => ?_⟩
  have hkept := not_overdue_of_kept horder.sorted htimeout (hsub.2.subset hmem)
  omega

/-- **The idle queue**, in every state that a run reaches, where the timeout fits. -/
theorem reached_queueKept (hfits : TimeoutFits config) (moves : List (Move Input Holder Outside)) :
    QueueKept config password moves where
  queue := reached_idleQueue moves
  reuses _ _ _ h := mostRecent_of_returns (reached_order config password moves) h
  drains i holder _ henabled := by
    refine acquire_drains (reached_order config password moves) henabled ?_
    exact hfits.resolve_left (by simp [henabled])

/-! ## Two scans in turn -/

/-- A scan over a new connection, and the start of another. -/
def twoScans : List (Move Input Holder Outside) :=
  [.start .scan, .act 0 .proceed, .act 0 (.attach (.ok ())), .act 0 .proceed, .act 0 .proceed, .act 0 .letGo,
    .outside (.tick 1000000), .act 0 .proceed, .start .scan, .outside (.tick 5000000)]

/-- An acquire finds nothing in an empty queue. -/
theorem step_acquire {w : World Process Task} {i : Nat} {holder : Holder} (htask : w.tasks[i]? = some ⟨holder, .acquire⟩)
    (hidle : w.shared.pool.idle = []) :
    (holders config password).step w (.act i .proceed) = { w with tasks := w.tasks.set i ⟨holder, .construct⟩ } := by
  have hdrain : w.shared.pool.drainExpired config w.shared.now = some w.shared.pool := if_neg fun h => h.2 hidle
  have htake : w.shared.pool.takeIdle = none := by
    unfold takeIdle
    rw [hidle]
    rfl
  have hacquire : w.shared.acquire config = (w.shared, .construct) := by
    unfold Process.acquire
    rw [hdrain]
    dsimp only
    rw [htake]
    exact ite_self _
  rw [Program.step_act _ htask]
  show ({ shared := (w.shared.acquire config).1
          tasks := w.tasks.set i ⟨holder, (w.shared.acquire config).2⟩ } : World Process Task) = _
  rw [hacquire]

/-- A release parks its connection in an empty queue, whatever the bound is. -/
theorem step_park {w : World Process Task} {i : Nat} {holder : Holder} {conn : FirebirdConnection}
    (henabled : config.enabled = true) (htask : w.tasks[i]? = some ⟨holder, .park conn⟩)
    (hidle : w.shared.pool.idle = []) :
    ((holders config password).step w (.act i .proceed)).shared.pool.idle =
      [{ conn := conn, releasedAt := w.shared.now }] := by
  have hroom : ¬(config.maxSize > 0 ∧ (([] : List IdleEntry).length : Int) ≥ config.maxSize) := by
    rintro ⟨hpos, hfull⟩
    rw [List.length_nil, Nat.cast_zero] at hfull
    omega
  rw [Program.step_act _ htask]
  show (w.shared.pool.park config w.shared.now conn).idle = _
  unfold FirebirdConnectionPool.park
  rw [if_neg (by simp [henabled]), hidle, if_neg hroom]
  rfl

/-- The first scan leaves its connection in the queue, and the second is about to acquire. -/
theorem reached_twoScans (henabled : config.enabled = true) (password : Bytes) :
    (reached config password twoScans).shared.pool.idle ≠ [] ∧
      (reached config password twoScans).tasks[1]? = some ⟨.scan, .acquire⟩ := by
  -- behind its first acquire, and behind its release
  have hacquired := @step_acquire config password { shared := {}, tasks := [⟨.scan, .acquire⟩] } 0 .scan rfl rfl
  have hparked := @step_park config password
    { shared := { pool := { totalCreated := 1, active := 0 }, nextId := 1, now := 1000000 }
      tasks := [⟨.scan, .park { id := 0 }⟩] } 0 .scan { id := 0 } henabled rfl rfl
  have hreached : reached config password twoScans =
      run (holders config password).step
        ((holders config password).step
          { shared := { pool := { totalCreated := 1, active := 0 }, nextId := 1, now := 1000000 }
            tasks := [⟨.scan, .park { id := 0 }⟩] } (.act 0 .proceed))
        [.start .scan, .outside (.tick 5000000)] := by
    show run (holders config password).step
      ((holders config password).step { shared := {}, tasks := [⟨.scan, .acquire⟩] } (.act 0 .proceed)) _ = _
    rw [hacquired]
    rfl
  rw [hreached]
  constructor
  · -- the start of a scan and the clock leave the queue as it is
    exact hparked ▸ List.cons_ne_nil _ _
  · rfl

/-- An acquire whose timeout does not fit. -/
theorem acquire_overflows {s : Process} (henabled : config.enabled = true) (htimeout : 0 < config.idleTimeoutMs)
    (hidle : s.pool.idle ≠ []) (hover : 2 ^ 63 ≤ config.idleTimeoutMs * 1000000) :
    s.acquire config = (s, .overflow) := by
  rcases acquire_cases s henabled with ⟨-, hacquire⟩ | ⟨hdrained, -⟩
  · exact hacquire
  · rw [drainExpired_eq, if_pos ⟨htimeout, hidle, hover⟩] at hdrained
    cases hdrained

theorem not_queueKept (henabled : config.enabled = true) (htimeout : 0 < config.idleTimeoutMs)
    (hover : 2 ^ 63 ≤ config.idleTimeoutMs * 1000000) (password : Bytes) : ¬QueueKept config password twoScans := by
  intro h
  obtain ⟨hidle, htask⟩ := reached_twoScans henabled password
  have hdrains := (h.drains 1 .scan htask henabled).computed
  have hacquire := acquire_overflows henabled htimeout hidle hover
  exact hdrains (congrArg Prod.snd hacquire)

/-- **The idle queue is what it is to be in every run**, exactly if the pool is disabled or its timeout fits 64-bit
    nanoseconds. -/
theorem idle_queue_iff (config : FirebirdConnectionPoolConfig) :
    (∀ (password : Bytes) (moves : List (Move Input Holder Outside)), QueueKept config password moves) ↔
      TimeoutFits config := by
  constructor
  · intro h
    by_contra hnot
    obtain ⟨henabled, hover⟩ := not_or.mp hnot
    refine not_queueKept (by simpa using henabled) ?_ (not_lt.mp hover) [] (h [] twoScans)
    omega
  · intro hfits password moves
    exact reached_queueKept hfits moves

/-- Connections are kept for 292 years and some months. -/
def longTimeout : FirebirdConnectionPoolConfig where
  idleTimeoutMs := 9223372036855

/-- **A timeout that the settings accept, and that the first acquire of a parked connection cannot convert.** -/
theorem idle_queue_longTimeout :
    0 ≤ longTimeout.maxSize ∧ 0 ≤ longTimeout.idleTimeoutMs ∧ longTimeout.idleTimeoutMs < 2 ^ 63 ∧
      ((reached longTimeout [] twoScans).shared.acquire longTimeout).2 = .overflow ∧
      ¬QueueKept longTimeout [] twoScans := by
  have hover : 2 ^ 63 ≤ longTimeout.idleTimeoutMs * 1000000 := by decide
  obtain ⟨hidle, -⟩ := @reached_twoScans longTimeout rfl []
  have hacquire := @acquire_overflows longTimeout _ rfl (by decide) hidle hover
  exact ⟨by decide, by decide, by decide, congrArg Prod.snd hacquire, not_queueKept rfl (by decide) hover []⟩

end FirebirdScan
