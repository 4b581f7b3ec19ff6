import FirebirdScan.Types

/-!
# `Pool.ConnectionPool` — the idle queue and the counters (`FirebirdConnectionPool`)

The queue is filled at the back. An acquire first drops what has expired from the front, and then takes from the
back; a release drops the connection where the queue is full. What an acquire and a release do under the lock is
one function each; the counters they change outside the lock are steps of their own (`Pool.Leases`).

The queue is in the order of release times (`Sorted`), so what the front has left to drop is all that has expired
(`kept_eq_filter`).
-/

namespace FirebirdScan

/-- `FirebirdConnection`: its number, and whether the attachment is alive. Nothing in the extension reads the
    latter. -/
structure FirebirdConnection where
  id : Nat
  alive : Bool := true
deriving DecidableEq, Repr

/-- `FirebirdConnectionPoolConfig`. -/
structure FirebirdConnectionPoolConfig where
  enabled : Bool := true
  maxSize : Int := 0
  idleTimeoutMs : Int := 0

/-- `FirebirdConnectionLease`. -/
structure FirebirdConnectionLease where
  conn : FirebirdConnection
  reused : Bool
deriving DecidableEq, Repr

/-- `IdleEntry`. A time of the steady clock is its number of nanoseconds. -/
structure IdleEntry where
  conn : FirebirdConnection
  releasedAt : Int
deriving DecidableEq, Repr

/-- `FirebirdConnectionPool`, without what never changes: its configuration and the connection parameters. -/
structure FirebirdConnectionPool where
  idle : List IdleEntry := []
  totalCreated : Int := 0
  totalReused : Int := 0
  totalDiscarded : Int := 0
  active : Int := 0
  lastError : Bytes := []

/-! ## Error texts -/

/-- The `while` loop of `SanitizeConnectionError`. The first argument is how many bytes of an occurrence are
    still to be passed over. -/
def redact (password : Bytes) : Nat → Bytes → Bytes
  | _, [] => []
  | skip + 1, _ :: message => redact password skip message
  | 0, c :: message =>
      if password.isPrefixOf (c :: message) then utf8 "****" ++ redact password (password.length - 1) message
      else c :: redact password 0 message

/-- `SanitizeConnectionError`. -/
def sanitizeConnectionError (message password : Bytes) : Bytes :=
  (if password = [] then message else redact password 0 message).take 500

namespace FirebirdConnectionPool

/-- `RecordConnectionError`. -/
def recordConnectionError (pool : FirebirdConnectionPool) (password message : Bytes) : FirebirdConnectionPool :=
  { pool with lastError := sanitizeConnectionError message password }

variable (config : FirebirdConnectionPoolConfig) (now : Int) (pool : FirebirdConnectionPool)

/-! ## Under the lock -/

/-- `std::chrono::milliseconds(idle_timeout_ms)`, as the comparison converts it to 64-bit nanoseconds. -/
def cutoff : Option Int := int64 (config.idleTimeoutMs * 1000000)

/-- The test of the loop that drains the queue. -/
def expired (cutoff : Int) (entry : IdleEntry) : Bool := now - entry.releasedAt > cutoff

/-- An acquire drops the expired entries at the front. -/
def drainExpired : Option FirebirdConnectionPool :=
  if config.idleTimeoutMs > 0 ∧ pool.idle ≠ [] then do
    let cutoff ← cutoff config
    let drop := (pool.idle.takeWhile (expired now cutoff)).length
    if drop > 0 then
      some { pool with idle := pool.idle.drop drop, totalDiscarded := pool.totalDiscarded + drop }
    else some pool
  else some pool

/-- An acquire takes the entry at the back. -/
def takeIdle : Option (FirebirdConnection × FirebirdConnectionPool) :=
  match pool.idle.getLast? with
  | none => none
  | some entry =>
      some (entry.conn,
        { pool with
          idle := pool.idle.dropLast, totalReused := pool.totalReused + 1, active := pool.active + 1 })

/-- A release parks the connection, or drops it: in a disabled pool, and in one that is full. -/
def park (conn : FirebirdConnection) : FirebirdConnectionPool :=
  if config.enabled = false then { pool with totalDiscarded := pool.totalDiscarded + 1 }
  else if config.maxSize > 0 ∧ (pool.idle.length : Int) ≥ config.maxSize then
    { pool with totalDiscarded := pool.totalDiscarded + 1 }
  else { pool with idle := pool.idle ++ [{ conn := conn, releasedAt := now }] }

/-! ## Draining -/

/-- The queue is in the order of release. -/
def Sorted (idle : List IdleEntry) : Prop := idle.Pairwise fun a b => a.releasedAt ≤ b.releasedAt

/-- The entry was idle for longer than the timeout. -/
def overdue (entry : IdleEntry) : Bool := expired now (config.idleTimeoutMs * 1000000) entry

theorem overdue_iff {entry : IdleEntry} :
    overdue config now entry = true ↔ config.idleTimeoutMs * 1000000 < now - entry.releasedAt :=
  decide_eq_true_iff

/-- The entries that an acquire leaves. -/
def kept (idle : List IdleEntry) : List IdleEntry :=
  if config.idleTimeoutMs > 0 then idle.dropWhile (overdue config now) else idle

/-- The pool that an acquire leaves behind the expired entries: what is not kept is counted. -/
def drained : FirebirdConnectionPool :=
  { pool with
    idle := kept config now pool.idle
    totalDiscarded := pool.totalDiscarded + (pool.idle.length - (kept config now pool.idle).length) }

/-- What is dropped from the front is all there is to drop, if what precedes an element to drop is to be dropped. -/
theorem dropWhile_eq_filter {α : Type} {p : α → Bool} {l : List α} (h : l.Pairwise fun a b => p b = true → p a = true) :
    l.dropWhile p = l.filter fun a => !p a := by
  induction l with
  | nil => rfl
  | cons a l ih =>
      obtain ⟨hhead, htail⟩ := List.pairwise_cons.mp h
      cases ha : p a with
      | true =>
          rw [List.dropWhile_cons_of_pos ha, List.filter_cons_of_neg (by simp [ha])]
          exact ih htail
      | false =>
          have hall : ∀ b ∈ a :: l, (!p b) = true := by
            intro b hb
            rcases List.mem_cons.mp hb with rfl | hb
            · simp [ha]
            · cases hpb : p b with
              | true => rw [hhead b hb hpb] at ha; cases ha
              | false => rfl
          rw [List.dropWhile_cons_of_neg (by simp [ha]), List.filter_eq_self.mpr hall]

variable {config now} {idle : List IdleEntry}

theorem kept_suffix (config : FirebirdConnectionPoolConfig) (now : Int) (idle : List IdleEntry) :
    kept config now idle <:+ idle := by
  unfold kept
  split_ifs
  · exact List.dropWhile_suffix _
  · exact List.suffix_rfl

/-- What was released earlier has expired earlier. -/
theorem Sorted.overdue_mono (h : Sorted idle) :
    idle.Pairwise fun a b => overdue config now b = true → overdue config now a = true := by
  refine h.imp fun {a b} hab hb => ?_
  rw [overdue_iff] at hb ⊢
  omega

/-- **All that has expired is dropped**: the expired entries are at the front. -/
theorem kept_eq_filter (h : Sorted idle) :
    kept config now idle = idle.filter fun entry => !(config.idleTimeoutMs > 0 && overdue config now entry) := by
  unfold kept
  split_ifs with htimeout
  · rw [dropWhile_eq_filter h.overdue_mono]
    simp only [htimeout, decide_true, Bool.true_and]
  · simp only [htimeout, decide_false, Bool.false_and, Bool.not_false, List.filter_true]

/-- Draining in one piece: what is not kept is counted. -/
theorem drain_eq (p : IdleEntry → Bool) (pool : FirebirdConnectionPool) :
    (if (pool.idle.takeWhile p).length > 0 then
        { pool with
          idle := pool.idle.drop (pool.idle.takeWhile p).length
          totalDiscarded := pool.totalDiscarded + (pool.idle.takeWhile p).length }
      else pool) =
      { pool with
        idle := pool.idle.dropWhile p
        totalDiscarded := pool.totalDiscarded + (pool.idle.length - (pool.idle.dropWhile p).length) } := by
  have hsplit := List.takeWhile_append_dropWhile (p := p) (l := pool.idle)
  generalize pool.idle.takeWhile p = front at hsplit ⊢
  generalize pool.idle.dropWhile p = rest at hsplit ⊢
  rcases front with _ | ⟨entry, front⟩
  · -- nothing to drop
    rw [List.nil_append] at hsplit
    subst hsplit
    simp only [List.length_nil, gt_iff_lt, lt_self_iff_false, if_false, sub_self, add_zero]
  · have hrest : pool.idle.drop (entry :: front).length = rest := by rw [← hsplit, List.drop_left]
    have hlength : (pool.idle.length : Int) - rest.length = (entry :: front).length := by
      rw [← hsplit, List.length_append]
      omega
    rw [hlength, ← hrest]
    exact if_pos (Nat.succ_pos _)

/-- **What draining does**: where the timeout fits 64-bit nanoseconds, or is not looked at, the pool is the one behind
    the expired entries. -/
theorem drainExpired_eq (config : FirebirdConnectionPoolConfig) (now : Int) (pool : FirebirdConnectionPool) :
    pool.drainExpired config now =
      if 0 < config.idleTimeoutMs ∧ pool.idle ≠ [] ∧ 2 ^ 63 ≤ config.idleTimeoutMs * 1000000 then none
      else some (pool.drained config now) := by
  unfold drainExpired drained kept
  by_cases htimeout : config.idleTimeoutMs > 0
  · rw [if_pos htimeout]
    by_cases hidle : pool.idle = []
    · rw [if_neg fun h => h.2 hidle, if_neg fun h => h.2.1 hidle, hidle, List.dropWhile_nil, List.length_nil, sub_self,
        add_zero, ← hidle]
    · rw [if_pos ⟨htimeout, hidle⟩, cutoff]
      by_cases hfits : config.idleTimeoutMs * 1000000 < 2 ^ 63
      · rw [int64_of_mem (by omega) hfits, if_neg fun h => absurd hfits (not_lt.mpr h.2.2)]
        have hdrain := drain_eq (overdue config now) pool
        unfold overdue at hdrain ⊢
        rw [← hdrain]
        exact (apply_ite some _ _ _).symm
      · rw [if_pos ⟨htimeout, hidle, not_lt.mp hfits⟩, int64, if_neg fun h => hfits h.2]
        rfl
  · rw [if_neg fun h => htimeout h.1, if_neg fun h => htimeout h.1, if_neg htimeout, sub_self, add_zero]

end FirebirdConnectionPool

end FirebirdScan
