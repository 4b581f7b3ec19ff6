import FirebirdScan.Lib.Tasks
import FirebirdScan.Pool.ConnectionPool
import FirebirdScan.Storage.CatalogLoad

/-!
# `Pool.Leases` — the holders of connections, and the accounts of the pool

Four components take a connection from the pool of an attached database: the state of a scan, a metadata lease,
`GetScanFunction` and `EnsureTablesLoaded`. The first three give it back whatever happens, from a destructor or
behind a probe that catches everything; the last one releases it on its last line.

Each holder is a task over the process: it goes through `AcquireWithInfo`, holds its lease, and goes through
`Release`. A step is what one lock covers, or one change of a counter outside it. The locks of the catalog, which
only keep some of these runs from happening, and the counters of fetched bytes are left out.

Where no call is in progress, the accounts balance exactly when no catalog load of the run has thrown with its
connection in hand (`accounts_balance_iff`).
-/

namespace FirebirdScan

open Run Tasks

/-! ## The source -/

/-- What takes connections from the pool. -/
inductive Holder where
  /-- `FirebirdLocalState` -/
  | scan
  /-- `FirebirdMetadataLease` -/
  | metadataLease
  /-- `FirebirdTableEntry::GetScanFunction` -/
  | getScanFunction
  /-- `FirebirdSchemaEntry::EnsureTablesLoaded` -/
  | catalogLoad
deriving DecidableEq

/-- Where a holder is. -/
inductive Stage where
  /-- in `AcquireWithInfo` -/
  | acquire
  /-- in an acquire that has no meaning: the timeout overflows where it becomes nanoseconds -/
  | overflow
  /-- past the queue, about to construct a connection -/
  | construct
  /-- in front of `total_created_.fetch_add` -/
  | built (conn : FirebirdConnection)
  /-- in front of `active_.fetch_add` -/
  | counted (conn : FirebirdConnection)
  | holding (lease : FirebirdConnectionLease)
  /-- in `Release`, behind `active_.fetch_sub` -/
  | park (conn : FirebirdConnection)
  /-- gone, with its connection returned -/
  | finished
  /-- gone, since the acquire threw -/
  | failed (message : Bytes)
  /-- gone, with its connection destroyed on the way -/
  | dropped (message : Bytes)

structure Task where
  holder : Holder
  stage : Stage := .acquire

/-- What happens to a holder. -/
inductive Input where
  /-- the next step of the call it is in -/
  | proceed
  /-- the constructor of `FirebirdConnection` returns, or throws -/
  | attach (outcome : Except Bytes Unit)
  /-- a wire operation fails because the connection is lost -/
  | wireLost
  /-- the holder ends; for `GetScanFunction`, the probe returns -/
  | letGo
  /-- the queries of a catalog load are answered -/
  | loadTables (load : CatalogLoad)

/-- What happens elsewhere in the process. -/
inductive Outside where
  /-- the steady clock goes on -/
  | tick (nanoseconds : Nat)
  /-- a connection is constructed that is not the pool's -/
  | connect

/-- The pool, the counter of connection numbers, and the clock. -/
structure Process where
  pool : FirebirdConnectionPool := {}
  nextId : Nat := 0
  now : Int := 0

namespace Process

variable (config : FirebirdConnectionPoolConfig) (password : Bytes) (s : Process)

/-- `AcquireWithInfo`, up to the end of its lock. -/
def acquire : Process × Stage :=
  if config.enabled = false then (s, .construct)
  else
    match s.pool.drainExpired config s.now with
    | none => (s, .overflow)
    | some drained =>
        match drained.takeIdle with
        | none => ({ s with pool := drained }, .construct)
        | some (conn, pool) => ({ s with pool := pool }, .holding { conn := conn, reused := true })

/-- The construction. The number is drawn before the attachment is tried. -/
def construct : Except Bytes Unit → Process × Stage
  | .ok () => ({ s with nextId := s.nextId + 1 }, .built { id := s.nextId })
  | .error message =>
      ({ s with nextId := s.nextId + 1, pool := s.pool.recordConnectionError password message }, .failed message)

/-- `Release` begins. -/
def release (conn : FirebirdConnection) : Process × Stage :=
  ({ s with pool := { s.pool with active := s.pool.active - 1 } }, .park conn)

/-- One step of a holder. What does not apply to its stage changes nothing. -/
def act (holder : Holder) (stage : Stage) (input : Input) : Process × Stage :=
  match stage, input with
  | .acquire, .proceed => s.acquire config
  | .construct, .attach outcome => s.construct password outcome
  | .built conn, .proceed =>
      ({ s with pool := { s.pool with totalCreated := s.pool.totalCreated + 1 } }, .counted conn)
  | .counted conn, .proceed =>
      ({ s with pool := { s.pool with active := s.pool.active + 1 } }, .holding { conn := conn, reused := false })
  | .holding lease, .wireLost => (s, .holding { lease with conn := { lease.conn with alive := false } })
  | .holding lease, .letGo => if holder = .catalogLoad then (s, stage) else s.release lease.conn
  | .holding lease, .loadTables load =>
      if holder = .catalogLoad then
        match load.ensureTablesLoaded with
        | .ok _ => s.release lease.conn
        -- the exception leaves the function in front of its `Release`
        | .error message => (s, .dropped message)
      else (s, stage)
  | .park conn, .proceed => ({ s with pool := s.pool.park config s.now conn }, .finished)
  | _, _ => (s, stage)

/-- What happens elsewhere. -/
def outside : Outside → Process
  | .tick nanoseconds => { s with now := s.now + nanoseconds }
  | .connect => { s with nextId := s.nextId + 1 }

end Process

section

variable (config : FirebirdConnectionPoolConfig) (password : Bytes)

/-- The holders over the process. -/
def holders : Program Process Task Input Holder Outside where
  start holder := { holder := holder }
  act s task input :=
    ((s.act config password task.holder task.stage input).1,
      { task with stage := (s.act config password task.holder task.stage input).2 })
  outside := Process.outside

/-- What a run of an attached database reaches. -/
def reached (moves : List (Move Input Holder Outside)) : World Process Task :=
  run (holders config password).step { shared := {} } moves

end

/-! ## What a step can do -/

open FirebirdConnectionPool in
/-- The steps of a holder, with what they change. -/
inductive Acts (config : FirebirdConnectionPoolConfig) (s : Process) (holder : Holder) :
    Stage → Process → Stage → Prop where
  | stays (stage : Stage) : Acts config s holder stage s stage
  | skipsQueue (h : config.enabled = false) : Acts config s holder .acquire s .construct
  | overflows (h : config.enabled = true) (hcutoff : s.pool.drainExpired config s.now = none) :
      Acts config s holder .acquire s .overflow
  | findsNone (h : config.enabled = true) (hkept : kept config s.now s.pool.idle = []) :
      Acts config s holder .acquire { s with pool := s.pool.drained config s.now } .construct
  | reuses (h : config.enabled = true) (rest : List IdleEntry) (entry : IdleEntry)
      (hkept : kept config s.now s.pool.idle = rest ++ [entry]) :
      Acts config s holder .acquire
        { s with pool := { s.pool.drained config s.now with
            idle := rest
            totalReused := s.pool.totalReused + 1
            active := s.pool.active + 1 } }
        (.holding { conn := entry.conn, reused := true })
  | builds : Acts config s holder .construct { s with nextId := s.nextId + 1 } (.built { id := s.nextId })
  | throws (password message : Bytes) :
      Acts config s holder .construct
        { s with nextId := s.nextId + 1, pool := s.pool.recordConnectionError password message } (.failed message)
  | countsCreated (conn : FirebirdConnection) :
      Acts config s holder (.built conn)
        { s with pool := { s.pool with totalCreated := s.pool.totalCreated + 1 } } (.counted conn)
  | countsActive (conn : FirebirdConnection) :
      Acts config s holder (.counted conn) { s with pool := { s.pool with active := s.pool.active + 1 } }
        (.holding { conn := conn, reused := false })
  | loses (lease : FirebirdConnectionLease) :
      Acts config s holder (.holding lease) s (.holding { lease with conn := { lease.conn with alive := false } })
  | releases (lease : FirebirdConnectionLease) :
      Acts config s holder (.holding lease) { s with pool := { s.pool with active := s.pool.active - 1 } }
        (.park lease.conn)
  | drops (h : holder = .catalogLoad) (lease : FirebirdConnectionLease) (message : Bytes) :
      Acts config s holder (.holding lease) s (.dropped message)
  | discards (conn : FirebirdConnection) :
      Acts config s holder (.park conn)
        { s with pool := { s.pool with totalDiscarded := s.pool.totalDiscarded + 1 } } .finished
  | parks (conn : FirebirdConnection) (h : config.enabled = true)
      (hroom : 0 < config.maxSize → (s.pool.idle.length : Int) < config.maxSize) :
      Acts config s holder (.park conn)
        { s with pool := { s.pool with idle := s.pool.idle ++ [{ conn := conn, releasedAt := s.now }] } } .finished

section

variable (config : FirebirdConnectionPoolConfig) (password : Bytes) (s : Process) (holder : Holder)

variable {config} in
open FirebirdConnectionPool in
/-- An acquire of an enabled pool has no meaning, finds nothing behind the expired entries, or takes the last one. -/
theorem acquire_cases (henabled : config.enabled = true) :
    (s.pool.drainExpired config s.now = none ∧ s.acquire config = (s, .overflow)) ∨
      s.pool.drainExpired config s.now = some (s.pool.drained config s.now) ∧
        ((kept config s.now s.pool.idle = [] ∧
            s.acquire config = ({ s with pool := s.pool.drained config s.now }, .construct)) ∨
          ∃ rest entry, kept config s.now s.pool.idle = rest ++ [entry] ∧
            s.acquire config =
              ({ s with pool := { s.pool.drained config s.now with
                  idle := rest
                  totalReused := s.pool.totalReused + 1
                  active := s.pool.active + 1 } },
                .holding { conn := entry.conn, reused := true })) := by
  unfold Process.acquire
  rw [if_neg (by simp [henabled]), drainExpired_eq]
  split_ifs with hoverflow
  · exact .inl ⟨rfl, rfl⟩
  · refine .inr ⟨rfl, ?_⟩
    rcases List.eq_nil_or_concat' (kept config s.now s.pool.idle) with hnil | ⟨rest, entry, hlast⟩
    · have hnone : (s.pool.drained config s.now).takeIdle = none := by
        unfold takeIdle drained
        rw [hnil]
        rfl
      exact .inl ⟨hnil, by simp only [hnone]⟩
    · have hsome : (s.pool.drained config s.now).takeIdle =
          some (entry.conn, { s.pool.drained config s.now with
            idle := rest
            totalReused := s.pool.totalReused + 1
            active := s.pool.active + 1 }) := by
        unfold takeIdle drained
        rw [hlast, List.getLast?_concat, List.dropLast_concat]
      exact .inr ⟨rest, entry, hlast, by simp only [hsome]⟩

theorem acquire_acts : Acts config s holder .acquire (s.acquire config).1 (s.acquire config).2 := by
  by_cases henabled : config.enabled = true
  · rcases acquire_cases s henabled with
      ⟨hcutoff, hacquire⟩ | ⟨-, ⟨hnil, hacquire⟩ | ⟨rest, entry, hlast, hacquire⟩⟩
    · rw [hacquire]
      exact .overflows henabled hcutoff
    · rw [hacquire]
      exact .findsNone henabled hnil
    · rw [hacquire]
      exact .reuses henabled rest entry hlast
  · have hdisabled : config.enabled = false := by simpa using henabled
    unfold Process.acquire
    rw [if_pos hdisabled]
    exact .skipsQueue hdisabled

theorem park_acts (conn : FirebirdConnection) :
    Acts config s holder (.park conn) { s with pool := s.pool.park config s.now conn } .finished := by
  unfold FirebirdConnectionPool.park
  split_ifs with hdisabled hfull
  · exact .discards conn
  · exact .discards conn
  · have henabled : config.enabled = true := by simpa using hdisabled
    exact .parks conn henabled fun hsize => by omega

/-- **Every step is one of these.** -/
theorem act_acts (stage : Stage) (input : Input) :
    Acts config s holder stage (s.act config password holder stage input).1
      (s.act config password holder stage input).2 := by
  unfold Process.act
  split
  · exact acquire_acts config s holder
  · rename_i outcome
    rcases outcome with message | ⟨⟩
    · exact .throws password message
    · exact .builds
  · exact .countsCreated _
  · exact .countsActive _
  · exact .loses _
  · split_ifs
    · exact .stays _
    · exact .releases _
  · split_ifs with hload
    · split
      · exact .releases _
      · exact .drops hload _ _
    · exact .stays _
  · exact park_acts config s holder _
  · exact .stays _

end

/-! ## The accounts -/

/-- A call of the pool is in progress. -/
def Stage.inCall : Stage → Bool
  | .acquire | .overflow | .construct | .built _ | .counted _ | .park _ => true
  | .holding _ | .finished | .failed _ | .dropped _ => false

def Stage.isLease : Stage → Bool
  | .holding _ => true
  | _ => false

def Stage.isDropped : Stage → Bool
  | .dropped _ => true
  | _ => false

/-- No call of the pool is in progress. -/
def Quiescent (w : World Process Task) : Prop := ∀ task ∈ w.tasks, task.stage.inCall = false

/-- The connections handed out whose holder is still there. -/
def liveLeases (w : World Process Task) : Nat := w.tasks.countP fun task => task.stage.isLease

/-- The accounts of the pool. -/
structure Balanced (w : World Process Task) : Prop where
  created : w.shared.pool.totalCreated = liveLeases w + w.shared.pool.idle.length + w.shared.pool.totalDiscarded
  active : w.shared.pool.active = liveLeases w
  /-- once every holder is gone -/
  drained : (∀ task ∈ w.tasks, task.stage.isLease = false) → w.shared.pool.active = 0

/-- What the code relies on: a catalog load that has its connection does not throw. -/
def Allowed (w : World Process Task) : Move Input Holder Outside → Prop
  | .act i (.loadTables load) => ∀ lease, w.tasks[i]? = some ⟨.catalogLoad, .holding lease⟩ → load.Loads
  | _ => True

/-- A holder's part of `active_`, and of the connections that are neither idle nor discarded. -/
def Stage.part : Stage → Int × Int
  | .acquire | .overflow | .construct | .built _ | .finished | .failed _ => (0, 0)
  | .counted _ | .park _ => (0, 1)
  | .holding _ | .dropped _ => (1, 1)

/-- The accounts with everything in progress, and with what was dropped. -/
def Accounts (s : Process) (m : Int × Int) : Prop :=
  s.pool.active = m.1 ∧ s.pool.totalCreated = s.pool.idle.length + s.pool.totalDiscarded + m.2

section

variable {config : FirebirdConnectionPoolConfig} {password : Bytes}

theorem acts_accounts {s s' : Process} {holder : Holder} {stage stage' : Stage}
    (h : Acts config s holder stage s' stage') (frame : Int × Int) (haccounts : Accounts s (stage.part + frame)) :
    Accounts s' (stage'.part + frame) := by
  obtain ⟨hactive, hcreated⟩ := haccounts
  rw [Prod.fst_add] at hactive
  rw [Prod.snd_add] at hcreated
  unfold Accounts
  rw [Prod.fst_add, Prod.snd_add]
  -- what leaves the queue is in the hands of the holder, and the other way round
  cases h with
  | stays stage => exact ⟨hactive, hcreated⟩
  | skipsQueue | overflows => exact ⟨hactive, hcreated⟩
  | findsNone _ hkept =>
      rw [FirebirdConnectionPool.drained, hkept]
      simp only [Stage.part, List.length_nil] at hactive hcreated ⊢
      omega
  | reuses _ rest entry hkept =>
      rw [FirebirdConnectionPool.drained, hkept]
      simp only [Stage.part, List.length_append, List.length_singleton] at hactive hcreated ⊢
      omega
  | builds => exact ⟨hactive, hcreated⟩
  | throws => exact ⟨hactive, hcreated⟩
  | countsCreated =>
      simp only [Stage.part] at hactive hcreated ⊢
      omega
  | countsActive =>
      simp only [Stage.part] at hactive hcreated ⊢
      omega
  | loses => exact ⟨hactive, hcreated⟩
  | releases =>
      simp only [Stage.part] at hactive hcreated ⊢
      omega
  | drops => exact ⟨hactive, hcreated⟩
  | discards =>
      simp only [Stage.part] at hactive hcreated ⊢
      omega
  | parks =>
      simp only [Stage.part, List.length_append, List.length_singleton] at hactive hcreated ⊢
      omega

theorem accounts_frames : Frames (fun task : Task => task.stage.part) (holders config password) Accounts where
  start _ := rfl
  act _ _ _ frame h := acts_accounts (act_acts config password _ _ _ _) frame h
  outside _ event _ h := by
    cases event with
    | tick => exact h
    | connect => exact h

variable (config password) in
/-- The accounts of any run. -/
theorem reached_accounts (moves : List (Move Input Holder Outside)) :
    Accounts (reached config password moves).shared
      (total (fun task : Task => task.stage.part) (reached config password moves).tasks) :=
  accounts_frames.run (w := { shared := {} }) ⟨rfl, rfl⟩ moves

/-- Outside the calls, a part is that of a lease or of a connection that was dropped. -/
theorem Stage.part_eq {stage : Stage} (h : stage.inCall = false) :
    stage.part = ((if stage.isLease then 1 else 0) + (if stage.isDropped then 1 else 0),
      (if stage.isLease then 1 else 0) + (if stage.isDropped then 1 else 0)) := by
  cases stage with
  | holding | finished | failed | dropped => rfl
  | acquire | overflow | construct | built | counted | park => cases h

/-- The connections that were destroyed without a release. -/
def droppedLeases (w : World Process Task) : Nat := w.tasks.countP fun task => task.stage.isDropped

theorem total_part {w : World Process Task} (h : Quiescent w) :
    total (fun task : Task => task.stage.part) w.tasks =
      ((liveLeases w + droppedLeases w : Int), (liveLeases w + droppedLeases w : Int)) := by
  unfold liveLeases droppedLeases
  unfold Quiescent at h
  generalize w.tasks = tasks at h ⊢
  induction tasks with
  | nil => rfl
  | cons task tasks ih =>
      obtain ⟨hhead, htail⟩ := List.forall_mem_cons.mp h
      rw [total_cons, ih htail, Stage.part_eq hhead, List.countP_cons, List.countP_cons]
      apply Prod.ext
      · rw [Prod.fst_add]
        push_cast
        ring
      · rw [Prod.snd_add]
        push_cast
        ring

/-- Where no call is in progress, the accounts balance exactly when nothing was dropped. -/
theorem balanced_iff_dropped {moves : List (Move Input Holder Outside)}
    (h : Quiescent (reached config password moves)) :
    Balanced (reached config password moves) ↔ droppedLeases (reached config password moves) = 0 := by
  obtain ⟨hactive, hcreated⟩ := reached_accounts config password moves
  rw [total_part h] at hactive hcreated
  constructor
  · intro hbalanced
    have hlive := hbalanced.active
    omega
  · intro hnone
    have hactive' : (reached config password moves).shared.pool.active =
        liveLeases (reached config password moves) := by omega
    refine ⟨by omega, hactive', fun hgone => ?_⟩
    have hlive : liveLeases (reached config password moves) = 0 :=
      List.countP_eq_zero.mpr fun task htask => by simp [hgone task htask]
    rw [hactive', hlive]
    rfl

/-! ### What is dropped -/

/-- What the condition says of a step of a task. -/
theorem allowed_act_iff {w : World Process Task} {i : Nat} {holder : Holder} {stage : Stage}
    (htask : w.tasks[i]? = some ⟨holder, stage⟩) (input : Input) :
    Allowed w (.act i input) ↔
      ∀ load lease, input = .loadTables load → holder = .catalogLoad → stage = .holding lease → load.Loads := by
  constructor
  · rintro h load lease rfl rfl rfl
    exact h lease htask
  · intro h
    cases input with
    | loadTables load =>
        intro lease hlease
        obtain ⟨rfl, rfl⟩ := Task.mk.inj (Option.some.inj (htask.symm.trans hlease))
        exact h load lease rfl rfl rfl
    | proceed | attach | wireLost | letGo => trivial

variable (config password) in
/-- A catalog load that throws drops its connection. -/
theorem act_drops (s : Process) {holder : Holder} {stage : Stage} {input : Input}
    (h : ¬∀ load lease, input = .loadTables load → holder = .catalogLoad → stage = .holding lease → load.Loads) :
    stage.isDropped = false ∧ (s.act config password holder stage input).2.isDropped = true := by
  push Not at h
  obtain ⟨load, lease, rfl, rfl, rfl, hfails⟩ := h
  refine ⟨rfl, ?_⟩
  rcases hload : load.ensureTablesLoaded with message | tables
  · simp only [Process.act, if_true, hload]
    rfl
  · exact absurd (load.ensureTablesLoaded_iff.mp ⟨tables, hload⟩) hfails

/-- Nothing else drops one. -/
theorem act_isDropped {s : Process} {holder : Holder} {stage : Stage} {input : Input}
    (h : ∀ load lease, input = .loadTables load → holder = .catalogLoad → stage = .holding lease → load.Loads) :
    (s.act config password holder stage input).2.isDropped = stage.isDropped := by
  unfold Process.act
  split
  · have hacts := acquire_acts config s holder
    generalize s.acquire config = result at hacts
    rcases result with ⟨s', stage'⟩
    cases hacts <;> rfl
  · rename_i outcome
    rcases outcome with message | ⟨⟩ <;> rfl
  · rfl
  · rfl
  · rfl
  · split_ifs <;> rfl
  · rename_i lease load
    split_ifs with hload
    · obtain ⟨tables, htables⟩ := load.ensureTablesLoaded_iff.mpr (h load lease rfl hload rfl)
      rw [htables]
      rfl
    · rfl
  · rfl
  · rfl

variable (config password) in
/-- A step drops a connection exactly when it is not allowed. -/
theorem droppedLeases_step (w : World Process Task) (move : Move Input Holder Outside) :
    (Allowed w move ∧ droppedLeases ((holders config password).step w move) = droppedLeases w) ∨
      (¬Allowed w move ∧ droppedLeases ((holders config password).step w move) = droppedLeases w + 1) := by
  cases move with
  | start holder =>
      refine .inl ⟨trivial, ?_⟩
      show (w.tasks ++ [_]).countP _ = _
      rw [List.countP_append]
      rfl
  | outside event => exact .inl ⟨trivial, rfl⟩
  | act i input =>
      rcases htask : w.tasks[i]? with _ | ⟨holder, stage⟩
      · rw [Program.step_act_none _ htask]
        refine .inl ⟨?_, rfl⟩
        cases input with
        | loadTables load =>
            intro lease hsome
            rw [htask] at hsome
            cases hsome
        | proceed | attach | wireLost | letGo => trivial
      · obtain ⟨frame, htotal, hset⟩ :=
          total_set (fun task : Task => if task.stage.isDropped then 1 else 0) htask
        have hafter := hset { holder := holder, stage := (w.shared.act config password holder stage input).2 }
        rw [total_ite] at htotal hafter
        rw [Program.step_act _ htask, allowed_act_iff htask input]
        by_cases hallowed :
            ∀ load lease, input = .loadTables load → holder = .catalogLoad → stage = .holding lease → load.Loads
        · rw [act_isDropped hallowed] at hafter
          exact .inl ⟨hallowed, hafter.trans htotal.symm⟩
        · obtain ⟨hbefore, hdropped⟩ := act_drops config password w.shared hallowed
          have hcount : 1 + frame = 0 + frame + 1 := by omega
          rw [hbefore] at htotal
          rw [hdropped] at hafter
          refine .inr ⟨hallowed, hafter.trans (hcount.trans ?_)⟩
          exact congrArg Nat.succ htotal.symm

variable (config password) in
/-- A run drops no connection exactly when it meets the condition. -/
theorem droppedLeases_run (moves : List (Move Input Holder Outside)) (w : World Process Task) :
    droppedLeases (run (holders config password).step w moves) = 0 ↔
      droppedLeases w = 0 ∧ Meets (holders config password).step Allowed w moves := by
  induction moves generalizing w with
  | nil => exact (and_iff_left trivial).symm
  | cons move moves ih =>
      rw [run_cons, ih]
      show _ ↔ _ ∧ Allowed w move ∧ Meets _ Allowed _ moves
      rcases droppedLeases_step config password w move with ⟨hallowed, hstep⟩ | ⟨hnot, hstep⟩
      · rw [hstep, and_iff_right hallowed]
      · rw [hstep]
        exact iff_of_false (fun h => Nat.succ_ne_zero _ h.1) fun h => hnot h.2.1

/-- **The accounts balance** where no call is in progress, exactly when no catalog load of the run has thrown with
    its connection in hand. -/
theorem accounts_balance_iff {moves : List (Move Input Holder Outside)}
    (h : Quiescent (reached config password moves)) :
    Balanced (reached config password moves) ↔
      Meets (holders config password).step Allowed { shared := {} } moves := by
  rw [balanced_iff_dropped h, reached, droppedLeases_run]
  exact and_iff_right rfl

end

/-! ### A load that fails -/

/-- A load all of whose queries throw. -/
def deniedLoad : CatalogLoad where
  server _ := .error (utf8 "no permission for read-select access to TABLE RDB$RELATIONS")
  createEntry _ _ := .ok ()

/-- A load of a database without tables. -/
def emptyLoad : CatalogLoad where
  server
    | .relationFields _ => .ok []
    | .allRelationFields => .ok []
    | .userRelations => .ok []
    | .uniqueConstraints => .ok []
    | .foreignKeys => .ok []
    | .primaryKeyIndex _ => .ok none
    | .indexSegments _ => .ok []
    | .keyExtremes _ _ => .ok none
    | .objectType _ => .ok none
    | .describe _ _ => .ok []
  createEntry _ _ := .ok ()

/-- The first use of an attached database: its tables are loaded over a new connection. -/
def firstLoad (load : CatalogLoad) : List (Move Input Holder Outside) :=
  [.start .catalogLoad, .act 0 .proceed, .act 0 (.attach (.ok ())), .act 0 .proceed, .act 0 .proceed,
    .act 0 (.loadTables load), .act 0 .proceed]

theorem firstLoad_quiescent : Quiescent (reached {} [] (firstLoad emptyLoad)) := by
  have htasks : (reached {} [] (firstLoad emptyLoad)).tasks = [⟨.catalogLoad, .finished⟩] := rfl
  unfold Quiescent
  rw [htasks]
  exact List.forall_mem_singleton.mpr rfl

theorem accounts_balance_iff_empty :
    Balanced (reached {} [] (firstLoad emptyLoad)) ↔
      Meets (holders {} []).step Allowed { shared := {} } (firstLoad emptyLoad) :=
  accounts_balance_iff firstLoad_quiescent

/-- **A lease that is never returned**: the load throws, its connection is destroyed, and the pool still counts it
    as handed out. -/
theorem accounts_unbalanced :
    Quiescent (reached {} [] (firstLoad deniedLoad)) ∧ liveLeases (reached {} [] (firstLoad deniedLoad)) = 0 ∧
      (reached {} [] (firstLoad deniedLoad)).shared.pool.active = 1 ∧
      ¬Balanced (reached {} [] (firstLoad deniedLoad)) := by
  have htasks : ∃ message, (reached {} [] (firstLoad deniedLoad)).tasks = [⟨.catalogLoad, .dropped message⟩] :=
    ⟨_, rfl⟩
  obtain ⟨message, htasks⟩ := htasks
  have hlive : liveLeases (reached {} [] (firstLoad deniedLoad)) = 0 := by
    unfold liveLeases
    rw [htasks]
    rfl
  have hactive : (reached {} [] (firstLoad deniedLoad)).shared.pool.active = 1 := rfl
  refine ⟨?_, hlive, hactive, fun h => ?_⟩
  · unfold Quiescent
    rw [htasks]
    exact List.forall_mem_singleton.mpr rfl
  · have hbalanced := h.active
    rw [hlive, hactive] at hbalanced
    cases hbalanced

end FirebirdScan
