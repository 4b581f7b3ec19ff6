import FirebirdScan.Pool.IdleQueue

/-!
# `Pool.Health` — dead connections in the pool

A wire operation that fails with a lost connection raises, and the holder unwinds: its destructor releases the
connection like any other. Neither `Release` nor `AcquireWithInfo` asks whether a connection is alive, so a dead
one is parked and handed out as it is (`dead_connection_reused`).

That is the only way in which an acquire returns a dead connection (`returns_dead_iff`).
-/

namespace FirebirdScan

open Run Tasks FirebirdConnectionPool

variable {config : FirebirdConnectionPoolConfig} {password : Bytes}

/-- Between two states, a release puts a dead connection into the queue. -/
structure ParksDead (w w' : World Process Task) (conn : FirebirdConnection) : Prop where
  dead : conn.alive = false
  released : ∃ holder, ⟨holder, .park conn⟩ ∈ w.tasks
  parked : conn ∈ w'.shared.pool.idle.map IdleEntry.conn

/-- Some step of the run did. -/
def ParkedDead (config : FirebirdConnectionPoolConfig) (password : Bytes) (moves : List (Move Input Holder Outside))
    (conn : FirebirdConnection) : Prop :=
  ∃ ps move, ps ++ [move] <+: moves ∧ ParksDead (reached config password ps) (reached config password (ps ++ [move])) conn

/-! ## Steps -/

/-- What a step leaves in the queue was there, or a release parked it. -/
theorem acts_idle {s s' : Process} {holder : Holder} {stage stage' : Stage}
    (h : Acts config s holder stage s' stage') {entry : IdleEntry} (hentry : entry ∈ s'.pool.idle) :
    entry ∈ s.pool.idle ∨ stage = .park entry.conn := by
  cases h with
  | stays | skipsQueue | overflows | loses | drops | builds | throws | countsCreated | countsActive | releases
  | discards => exact .inl hentry
  | findsNone _ hkept => exact .inl ((kept_sublist s).subset hentry)
  | reuses _ rest last hkept =>
      exact .inl ((hkept ▸ kept_sublist s).subset (List.mem_append_left [last] hentry))
  | parks conn =>
      rcases List.mem_append.mp hentry with hold | hnew
      · exact .inl hold
      · obtain rfl := List.mem_singleton.mp hnew
        exact .inr rfl

/-- A connection on its way to its first lease is alive. -/
def Stage.FreshAlive : Stage → Prop
  | .built conn | .counted conn => conn.alive = true
  | _ => True

theorem acts_freshAlive {s s' : Process} {holder : Holder} {stage stage' : Stage}
    (h : Acts config s holder stage s' stage') (hfresh : stage.FreshAlive) : stage'.FreshAlive := by
  cases h with
  | stays => exact hfresh
  | builds => exact rfl
  | countsCreated => exact hfresh
  | skipsQueue | overflows | findsNone | reuses | throws | countsActive | loses | releases | drops | discards
  | parks => trivial

/-! ## Runs -/

/-- A step puts a connection into the queue only from a release. -/
theorem step_idle {conn : FirebirdConnection} (hdead : conn.alive = false) (w : World Process Task)
    (move : Move Input Holder Outside)
    (h : conn ∈ ((holders config password).step w move).shared.pool.idle.map IdleEntry.conn) :
    conn ∈ w.shared.pool.idle.map IdleEntry.conn ∨ ParksDead w ((holders config password).step w move) conn := by
  obtain ⟨entry, hentry, rfl⟩ := List.mem_map.mp h
  rcases (holders config password).step_shared w move with hsame | ⟨event, houtside⟩ | ⟨task, htask, input, hact⟩
  · rw [hsame] at hentry
    exact .inl (List.mem_map_of_mem hentry)
  · rw [houtside] at hentry
    refine .inl (List.mem_map_of_mem ?_)
    cases event with
    | tick | connect => exact hentry
  · rw [hact] at hentry
    rcases acts_idle (act_acts config password w.shared task.holder task.stage input) hentry with hold | hstage
    · exact .inl (List.mem_map_of_mem hold)
    · exact .inr ⟨hdead, ⟨task.holder, hstage ▸ htask⟩, h⟩

/-- A dead connection in the queue was parked dead. -/
theorem reached_idle_dead {moves : List (Move Input Holder Outside)} {conn : FirebirdConnection}
    (hdead : conn.alive = false) (h : conn ∈ (reached config password moves).shared.pool.idle.map IdleEntry.conn) :
    ParkedDead config password moves conn :=
  @run_provenance _ _ (holders config password).step
    (fun w => conn ∈ w.shared.pool.idle.map IdleEntry.conn) (fun w w' => ParksDead w w' conn)
    (step_idle hdead) { shared := {} } nofun moves h

variable (config password) in
theorem reached_fresh (moves : List (Move Input Holder Outside)) :
    ∀ task ∈ (reached config password moves).tasks, task.stage.FreshAlive :=
  @Program.forall_tasks _ _ _ _ _ (holders config password) (fun task => task.stage.FreshAlive) (fun _ => trivial)
    (fun s task input h => acts_freshAlive (act_acts config password s task.holder task.stage input) h)
    { shared := {} } nofun moves

/-- **The leases that are dead**: they are of idle connections that a release of the run has parked dead. -/
theorem returns_dead_iff {moves : List (Move Input Holder Outside)} {move : Move Input Holder Outside} {i : Nat}
    {lease : FirebirdConnectionLease}
    (h : Returns (reached config password moves) ((holders config password).step (reached config password moves) move)
      i lease) :
    lease.conn.alive = false ↔ lease.reused = true ∧ ParkedDead config password moves lease.conn := by
  constructor
  · intro hdead
    rcases returns_cases h with ⟨rest, entry, -, hkept, rfl⟩ | ⟨holder, conn, htask, rfl⟩
    · have hentry : entry ∈ kept config (reached config password moves).shared.now
          (reached config password moves).shared.pool.idle := by
        rw [hkept]
        exact List.mem_concat_self
      exact ⟨rfl, reached_idle_dead hdead (List.mem_map_of_mem ((kept_sublist _).subset hentry))⟩
    · have hfresh : conn.alive = true := reached_fresh config password moves _ (List.mem_of_getElem? htask)
      have hdead' : conn.alive = false := hdead
      rw [hfresh] at hdead'
      cases hdead'
  · rintro ⟨-, ps, m, -, hparks⟩
    exact hparks.dead

/-! ## One failure and the next query -/

/-- A scan acquires a connection, loses it, and ends; then another scan begins. -/
def lostScan : List (Move Input Holder Outside) :=
  [.start .scan, .act 0 .proceed, .act 0 (.attach (.ok ())), .act 0 .proceed, .act 0 .proceed, .act 0 .wireLost,
    .act 0 .letGo, .act 0 .proceed, .start .scan]

/-- What the second scan gets. -/
def lostLease : FirebirdConnectionLease := { conn := { id := 0, alive := false }, reused := true }

theorem lostScan_returns :
    Returns (reached {} [] lostScan) ((holders {} []).step (reached {} [] lostScan) (.act 1 .proceed)) 1 lostLease := by
  refine ⟨?_, .scan, rfl⟩
  intro task htask
  obtain rfl : ⟨.scan, .acquire⟩ = task := Option.some.inj htask
  rfl

theorem returns_dead_iff_lostScan :
    lostLease.conn.alive = false ↔ lostLease.reused = true ∧ ParkedDead {} [] lostScan lostLease.conn :=
  returns_dead_iff lostScan_returns

/-- **A dead connection is handed out**: the one that the first scan has lost. -/
theorem dead_connection_reused :
    ¬∀ config password moves move i lease,
      Returns (reached config password moves) ((holders config password).step (reached config password moves) move)
        i lease → lease.conn.alive = true := by
  intro h
  cases h {} [] lostScan (.act 1 .proceed) 1 lostLease lostScan_returns

end FirebirdScan
