import FirebirdScan.Client.Bind
import FirebirdScan.Lib.Raising

/-!
# `Client.StatementResources` — what the construction of a statement allocates and frees

A `FirebirdStatement` owns a statement handle of its connection and two descriptor areas (`XSQLDA`). Its destructor
frees them, and nothing else does; but a constructor that raises is not followed by the destructor. So everything is
freed exactly once when the handle cannot be allocated, or when nothing raises behind that
(`statement_releases_iff`). Any other raise leaves the handle open, on a connection that goes back to the pool.
-/

namespace FirebirdScan

open Raising

/-! ## The object -/

inductive ResourceKind where
  | statement | sqlda
deriving DecidableEq

/-- Something that was allocated. No two have the same number. -/
structure Resource where
  kind : ResourceKind
  number : Nat
deriving DecidableEq

inductive ResourceEvent where
  | allocated (r : Resource)
  | freed (r : Resource)
deriving DecidableEq

/-- `FirebirdStatement`: its pointers, and what has been allocated and freed so far. -/
structure StatementObject where
  stmt : Option Resource := none
  outSqlda : Option Resource := none
  inSqlda : Option Resource := none
  next : Nat := 0
  events : List ResourceEvent := []

namespace StatementObject

variable (obj : StatementObject)

/-- `isc_dsql_allocate_statement`, when it succeeds. -/
def allocateStatement : StatementObject :=
  { obj with
    stmt := some ⟨.statement, obj.next⟩
    next := obj.next + 1
    events := obj.events ++ [.allocated ⟨.statement, obj.next⟩] }

/-- `out_sqlda_ = AllocXSQLDA(n)`, when there is memory. -/
def allocateOut : StatementObject :=
  { obj with
    outSqlda := some ⟨.sqlda, obj.next⟩
    next := obj.next + 1
    events := obj.events ++ [.allocated ⟨.sqlda, obj.next⟩] }

/-- `in_sqlda_ = AllocXSQLDA(n)`, when there is memory. -/
def allocateIn : StatementObject :=
  { obj with
    inSqlda := some ⟨.sqlda, obj.next⟩
    next := obj.next + 1
    events := obj.events ++ [.allocated ⟨.sqlda, obj.next⟩] }

/-- `std::free`, or `isc_dsql_free_statement`. The pointer stays as it is. -/
def free (pointer : Option Resource) : StatementObject :=
  { obj with events := obj.events ++ (pointer.map ResourceEvent.freed).toList }

/-- `~FirebirdStatement`. -/
def destroy : StatementObject := ((obj.free obj.stmt).free obj.outSqlda).free obj.inSqlda

/-- What has been allocated and freed when an object is destroyed, or when its constructor has raised. -/
def lifetime : Except StatementObject StatementObject → List ResourceEvent
  | .ok obj => obj.destroy.events
  | .error obj => obj.events

end StatementObject

/-! ## The constructors -/

/-- The outcomes of the calls, in the order in which they are made. `none` and `false` raise; a description is the
    number of columns, or the parameters. -/
structure LibraryCalls where
  allocate : Bool
  outMemory : Bool
  prepare : Option Nat
  outMemoryAgain : Bool
  describe : Bool
  buffers : Bool
  inMemory : Bool
  describeBind : Option (List Xsqlvar)
  inMemoryAgain : Bool
  describeBindAgain : Option (List Xsqlvar)
  execute : Bool

inductive StatementConstructor where
  | plain
  | withParams (params : List Value)
  | prepareOnly

namespace LibraryCalls

variable (D : ValueApi) (calls : LibraryCalls)

/-- The columns that `isc_dsql_prepare` describes. -/
def sqld : Nat := calls.prepare.getD 0

/-- The parameters that `isc_dsql_describe_bind` describes. -/
def described : List Xsqlvar := calls.describeBind.getD []

/-- The parameters as the loop sees them: described once more if there was no room for them. -/
def bound (params : List Value) : List Xsqlvar :=
  if calls.described.length > params.length then calls.describeBindAgain.getD [] else calls.described

/-- Nothing raises in the loop over the parameters, or in the test of their number. -/
def bindsAll (params : List Value) : Bool :=
  match bindInputParameters D (calls.bound params) params with
  | .throws _ => false
  | .overflow => true
  | .ok _ => true

/-- The columns are described once more where the first area has no room for them. -/
def describeColumns (obj : StatementObject) : Except StatementObject StatementObject :=
  if calls.sqld > 16 then do
    let obj ← check calls.outMemoryAgain (obj.free obj.outSqlda)
    check calls.describe obj.allocateOut
  else pure obj

/-- `Prepare`, once the handle is allocated. -/
def prepareAllocated (obj : StatementObject) : Except StatementObject StatementObject := do
  let obj ← check calls.outMemory obj
  let obj ← check calls.prepare.isSome obj.allocateOut
  let obj ← calls.describeColumns obj
  check calls.buffers obj

/-- `Prepare`. -/
def prepareStatement (obj : StatementObject) : Except StatementObject StatementObject := do
  let obj ← check calls.allocate obj
  calls.prepareAllocated obj.allocateStatement

/-- So are the parameters. -/
def describeParameters (params : List Value) (obj : StatementObject) : Except StatementObject StatementObject :=
  if calls.described.length > params.length then do
    let obj ← check calls.inMemoryAgain (obj.free obj.inSqlda)
    check calls.describeBindAgain.isSome obj.allocateIn
  else pure obj

/-- `BindInputParameters`. -/
def bindParameters (params : List Value) (obj : StatementObject) : Except StatementObject StatementObject := do
  let obj ← check calls.inMemory obj
  let obj ← check calls.describeBind.isSome obj.allocateIn
  let obj ← calls.describeParameters params obj
  check (calls.bindsAll D params) obj

/-- What a constructor does behind `Prepare`. Without parameters nothing is bound. -/
def finish (obj : StatementObject) : StatementConstructor → Except StatementObject StatementObject
  | .plain => check calls.execute obj
  | .withParams [] => check calls.execute obj
  | .withParams (param :: params) => do
      let obj ← calls.bindParameters D (param :: params) obj
      check calls.execute obj
  | .prepareOnly => pure obj

/-- A constructor: the object, or what a raise has left of it. -/
def construct (ctor : StatementConstructor) : Except StatementObject StatementObject := do
  let obj ← calls.prepareStatement {}
  calls.finish D obj ctor

/-- What is allocated and freed until the construction has failed or the object is destroyed. -/
def lifetime (ctor : StatementConstructor) : List ResourceEvent := StatementObject.lifetime (calls.construct D ctor)

/-! ## The calls that raise -/

/-- No call raises in `Prepare`, behind the allocation of the handle. -/
def prepares : Bool :=
  calls.outMemory && (calls.prepare.isSome &&
    ((if calls.sqld > 16 then calls.outMemoryAgain && calls.describe else true) && calls.buffers))

/-- None does in `BindInputParameters`. -/
def binds (params : List Value) : Bool :=
  calls.inMemory && (calls.describeBind.isSome &&
    ((if calls.described.length > params.length then calls.inMemoryAgain && calls.describeBindAgain.isSome
      else true) && calls.bindsAll D params))

/-- None does in a constructor, behind the allocation of the handle. -/
def succeeds : StatementConstructor → Bool
  | .plain => calls.prepares && calls.execute
  | .withParams [] => calls.prepares && calls.execute
  | .withParams (param :: params) => calls.prepares && (calls.binds D (param :: params) && calls.execute)
  | .prepareOnly => calls.prepares && true

end LibraryCalls

/-! ## Accounts -/

/-- Everything that was allocated has been freed once, or is still held; and nothing else has been freed. -/
structure Accounted (obj : StatementObject) (held : List Resource) : Prop where
  fresh : ∀ r, .allocated r ∈ obj.events → r.number < obj.next
  once : ∀ r, obj.events.count (.allocated r) ≤ 1
  freed : ∀ r, obj.events.count (.freed r) + held.count r = obj.events.count (.allocated r)

/-- Everything that was allocated has been freed, and once. -/
def ReleasedOnce (events : List ResourceEvent) : Prop :=
  ∀ r, .allocated r ∈ events → events.count (.freed r) = 1

theorem Accounted.empty : Accounted {} [] := ⟨nofun, fun _ => Nat.zero_le _, fun _ => rfl⟩

/-- What is allocated is new. -/
theorem Accounted.allocate {obj obj' : StatementObject} {held : List Resource} (h : Accounted obj held)
    (kind : ResourceKind) (hnext : obj'.next = obj.next + 1)
    (hevents : obj'.events = obj.events ++ [.allocated ⟨kind, obj.next⟩]) :
    Accounted obj' (⟨kind, obj.next⟩ :: held) := by
  have hnew : obj.events.count (.allocated ⟨kind, obj.next⟩) = 0 := by
    apply List.count_eq_zero.mpr
    intro hmem
    exact lt_irrefl _ (h.fresh _ hmem)
  constructor
  · intro r hr
    rw [hevents, List.mem_append] at hr
    rw [hnext]
    rcases hr with hr | hr
    · exact Nat.lt_succ_of_lt (h.fresh r hr)
    · obtain rfl := ResourceEvent.allocated.inj (List.mem_singleton.mp hr)
      exact Nat.lt_succ_self _
  · intro r
    rw [hevents, List.count_append, List.count_singleton]
    split_ifs with heq
    · obtain rfl := ResourceEvent.allocated.inj (beq_iff_eq.mp heq)
      rw [hnew]
    · exact h.once r
  · intro r
    have hfreed := h.freed r
    rw [hevents, List.count_append, List.count_append, List.count_singleton, List.count_singleton, List.count_cons]
    -- the new one is allocated and held; for all others nothing changes
    by_cases heq : (⟨kind, obj.next⟩ : Resource) = r
    · subst heq
      simp
      omega
    · have hne : ¬ (ResourceEvent.allocated ⟨kind, obj.next⟩ == ResourceEvent.allocated r) = true := by
        simpa using heq
      simp [heq]
      omega

/-- What is freed is no longer held. -/
theorem Accounted.free {obj : StatementObject} {r : Resource} {held : List Resource} (h : Accounted obj (r :: held)) :
    Accounted (obj.free (some r)) held := by
  have hallocated : ∀ q, (obj.free (some r)).events.count (.allocated q) = obj.events.count (.allocated q) := by
    intro q
    show (obj.events ++ [ResourceEvent.freed r]).count (ResourceEvent.allocated q) = _
    rw [List.count_append]
    rfl
  constructor
  · intro q hq
    rcases List.mem_append.mp hq with hq | hq
    · exact h.fresh q hq
    · cases List.mem_singleton.mp hq
  · intro q
    rw [hallocated]
    exact h.once q
  · intro q
    have hfreed := h.freed q
    rw [hallocated, ← hfreed]
    show (obj.events ++ [ResourceEvent.freed r]).count (ResourceEvent.freed q) + _ = _
    rw [List.count_append, List.count_singleton, List.count_cons]
    by_cases heq : r = q
    · subst heq
      simp
      omega
    · simp [heq]

theorem Accounted.perm {obj : StatementObject} {held held' : List Resource} (h : Accounted obj held)
    (hperm : held.Perm held') : Accounted obj held' := by
  refine ⟨h.fresh, h.once, ?_⟩
  intro r
  rw [← hperm.count_eq]
  exact h.freed r

/-- Nothing held: everything is released. -/
theorem Accounted.released {obj : StatementObject} (h : Accounted obj []) : ReleasedOnce obj.events := by
  intro r hr
  have hpos := List.count_pos_iff.mpr hr
  have honce := h.once r
  have hfreed := h.freed r
  rw [List.count_nil] at hfreed
  omega

/-- Something held: it has been allocated, and not freed. -/
theorem Accounted.unreleased {obj : StatementObject} {held : List Resource} {r : Resource} (h : Accounted obj held)
    (hr : r ∈ held) : .allocated r ∈ obj.events ∧ .freed r ∉ obj.events := by
  have hheld := List.count_pos_iff.mpr hr
  have honce := h.once r
  have hfreed := h.freed r
  exact ⟨List.count_pos_iff.mp (by omega), List.count_eq_zero.mp (by omega)⟩

/-! ## The object along a constructor -/

/-- The object holds a statement handle and these descriptor areas, and that is all that there is. -/
structure Owns (handle : Resource) (out inn : Option Resource) (obj : StatementObject) : Prop where
  stmt : obj.stmt = some handle
  outSqlda : obj.outSqlda = out
  inSqlda : obj.inSqlda = inn
  accounted : Accounted obj (handle :: (out.toList ++ inn.toList))

/-- A statement handle was allocated and is not freed. -/
def StatementOpen (events : List ResourceEvent) : Prop :=
  ∃ handle : Resource, handle.kind = .statement ∧ .allocated handle ∈ events ∧ .freed handle ∉ events

theorem StatementOpen.not_released {events : List ResourceEvent} (h : StatementOpen events) :
    ¬ ReleasedOnce events := by
  obtain ⟨handle, -, hallocated, hfreed⟩ := h
  intro hreleased
  have hone := hreleased handle hallocated
  rw [List.count_eq_zero.mpr hfreed] at hone
  cases hone

variable {handle out : Resource} {inn : Option Resource} {obj : StatementObject}

theorem owns_allocateStatement : Owns ⟨.statement, 0⟩ none none (StatementObject.allocateStatement {}) :=
  ⟨rfl, rfl, rfl, Accounted.empty.allocate .statement rfl rfl⟩

/-- An area for the columns. The pointer may be that of an area that was freed. -/
theorem owns_allocateOut (hstmt : obj.stmt = some handle) (hin : obj.inSqlda = none)
    (h : Accounted obj [handle]) : Owns handle (some ⟨.sqlda, obj.next⟩) none obj.allocateOut :=
  ⟨hstmt, rfl, hin, (h.allocate .sqlda rfl rfl).perm (List.Perm.swap _ _ _)⟩

/-- An area for the parameters. -/
theorem owns_allocateIn (hstmt : obj.stmt = some handle) (hout : obj.outSqlda = some out)
    (h : Accounted obj [handle, out]) :
    Owns handle (some out) (some ⟨.sqlda, obj.next⟩) obj.allocateIn :=
  ⟨hstmt, hout, rfl, (h.allocate .sqlda rfl rfl).perm
    ((List.Perm.swap _ _ _).trans (.cons _ (List.Perm.swap _ _ _)))⟩

/-- The area for the columns is freed. -/
theorem Owns.freeOut (h : Owns handle (some out) none obj) : Accounted (obj.free obj.outSqlda) [handle] := by
  rw [h.outSqlda]
  exact (h.accounted.perm (List.Perm.swap _ _ _)).free

/-- The area for the parameters is freed. -/
theorem Owns.freeIn {area : Resource} (h : Owns handle (some out) (some area) obj) :
    Accounted (obj.free obj.inSqlda) [handle, out] := by
  rw [h.inSqlda]
  exact (h.accounted.perm ((List.Perm.cons _ (List.Perm.swap _ _ _)).trans (List.Perm.swap _ _ _))).free

/-- The destructor frees what the object holds. -/
theorem Owns.destroy (h : Owns handle (some out) inn obj) : ReleasedOnce obj.destroy.events := by
  have hstmt : Accounted (obj.free obj.stmt) (out :: inn.toList) := h.stmt ▸ h.accounted.free
  have hout : Accounted ((obj.free obj.stmt).free obj.outSqlda) inn.toList := h.outSqlda ▸ hstmt.free
  cases inn with
  | some area =>
      have hin : Accounted obj.destroy [] := by
        unfold StatementObject.destroy
        rw [h.inSqlda]
        exact hout.free
      exact hin.released
  | none =>
      have hsame : obj.destroy.events = ((obj.free obj.stmt).free obj.outSqlda).events := by
        unfold StatementObject.destroy
        rw [h.inSqlda]
        exact List.append_nil _
      rw [hsame]
      exact hout.released

/-! ## The constructors end -/

section

variable (D : ValueApi) (calls : LibraryCalls)

/-- A raise while a handle is held leaves it open. -/
theorem statementOpen_of_accounted (hkind : handle.kind = .statement) {held : List Resource}
    (h : Accounted obj (handle :: held)) : StatementOpen obj.events :=
  ⟨handle, hkind, h.unreleased List.mem_cons_self⟩

theorem describeColumns_ends (hkind : handle.kind = .statement) (h : Owns handle (some out) none obj) :
    Ends (fun obj => ∃ out, Owns handle (some out) none obj) (fun obj => StatementOpen obj.events)
      (if calls.sqld > 16 then calls.outMemoryAgain && calls.describe else true) (calls.describeColumns obj) := by
  unfold LibraryCalls.describeColumns
  by_cases hmany : calls.sqld > 16
  · rw [if_pos hmany, if_pos hmany]
    have hfreed := h.freeOut
    refine (Ends.check calls.outMemoryAgain
      (P := fun o => o.stmt = some handle ∧ o.inSqlda = none ∧ Accounted o [handle])
      ⟨h.stmt, h.inSqlda, hfreed⟩ (statementOpen_of_accounted hkind hfreed)).bind ?_
    rintro obj ⟨hstmt, hin, haccounted⟩
    have hout := owns_allocateOut hstmt hin haccounted
    exact Ends.check calls.describe ⟨_, hout⟩ (statementOpen_of_accounted hkind hout.accounted)
  · rw [if_neg hmany, if_neg hmany]
    exact .normally ⟨out, h⟩

/-- `Prepare` raises with the handle open, or leaves an object that holds a handle and an area for the columns. -/
theorem prepareAllocated_ends (hkind : handle.kind = .statement) (h : Owns handle none none obj) :
    Ends (fun obj => ∃ out, Owns handle (some out) none obj) (fun obj => StatementOpen obj.events) calls.prepares
      (calls.prepareAllocated obj) := by
  unfold LibraryCalls.prepareAllocated LibraryCalls.prepares
  refine (Ends.check calls.outMemory h (statementOpen_of_accounted hkind h.accounted)).bind ?_
  intro obj h
  have hout := owns_allocateOut h.stmt h.inSqlda h.accounted
  refine (Ends.check calls.prepare.isSome hout (statementOpen_of_accounted hkind hout.accounted)).bind ?_
  intro obj hobj
  refine (describeColumns_ends calls hkind hobj).bind ?_
  rintro obj ⟨out, hobj⟩
  exact Ends.check calls.buffers ⟨out, hobj⟩ (statementOpen_of_accounted hkind hobj.accounted)

theorem describeParameters_ends (hkind : handle.kind = .statement) {area : Resource} (params : List Value)
    (h : Owns handle (some out) (some area) obj) :
    Ends (fun obj => ∃ area, Owns handle (some out) (some area) obj) (fun obj => StatementOpen obj.events)
      (if calls.described.length > params.length then calls.inMemoryAgain && calls.describeBindAgain.isSome else true)
      (calls.describeParameters params obj) := by
  unfold LibraryCalls.describeParameters
  by_cases hmany : calls.described.length > params.length
  · rw [if_pos hmany, if_pos hmany]
    have hfreed := h.freeIn
    refine (Ends.check calls.inMemoryAgain
      (P := fun o => o.stmt = some handle ∧ o.outSqlda = some out ∧ Accounted o [handle, out])
      ⟨h.stmt, h.outSqlda, hfreed⟩ (statementOpen_of_accounted hkind hfreed)).bind ?_
    rintro obj ⟨hstmt, hout, haccounted⟩
    have hin := owns_allocateIn hstmt hout haccounted
    exact Ends.check calls.describeBindAgain.isSome ⟨_, hin⟩ (statementOpen_of_accounted hkind hin.accounted)
  · rw [if_neg hmany, if_neg hmany]
    exact .normally ⟨area, h⟩

theorem bindParameters_ends (hkind : handle.kind = .statement) (params : List Value)
    (h : Owns handle (some out) none obj) :
    Ends (fun obj => ∃ inn, Owns handle (some out) inn obj) (fun obj => StatementOpen obj.events) (calls.binds D params)
      (calls.bindParameters D params obj) := by
  unfold LibraryCalls.bindParameters LibraryCalls.binds
  refine (Ends.check calls.inMemory h (statementOpen_of_accounted hkind h.accounted)).bind ?_
  intro obj h
  have hin := owns_allocateIn h.stmt h.outSqlda h.accounted
  refine (Ends.check calls.describeBind.isSome hin (statementOpen_of_accounted hkind hin.accounted)).bind ?_
  intro obj hobj
  refine (describeParameters_ends calls hkind params hobj).bind ?_
  rintro obj ⟨area, hobj⟩
  exact Ends.check (calls.bindsAll D params) ⟨some area, hobj⟩ (statementOpen_of_accounted hkind hobj.accounted)

/-- A constructor whose handle is allocated raises with the handle open, or leaves an object that holds all that is
    allocated. -/
theorem finish_ends (hkind : handle.kind = .statement) (ctor : StatementConstructor)
    (h : Owns handle none none obj) :
    Ends (fun obj => ∃ out inn, Owns handle (some out) inn obj) (fun obj => StatementOpen obj.events)
      (calls.succeeds D ctor) (calls.prepareAllocated obj >>= fun obj => calls.finish D obj ctor) := by
  have hexecute {obj : StatementObject} {out : Resource} {inn : Option Resource}
      (hobj : Owns handle (some out) inn obj) :
      Ends (fun obj => ∃ out inn, Owns handle (some out) inn obj) (fun obj => StatementOpen obj.events) calls.execute
        (check calls.execute obj) :=
    Ends.check calls.execute ⟨out, inn, hobj⟩ (statementOpen_of_accounted hkind hobj.accounted)
  have hprepare := prepareAllocated_ends calls hkind h
  match ctor with
  | .plain =>
      refine hprepare.bind ?_
      rintro obj ⟨out, hobj⟩
      exact hexecute hobj
  | .withParams [] =>
      refine hprepare.bind ?_
      rintro obj ⟨out, hobj⟩
      exact hexecute hobj
  | .withParams (param :: params) =>
      refine hprepare.bind ?_
      rintro obj ⟨out, hobj⟩
      refine (bindParameters_ends D calls hkind (param :: params) hobj).bind ?_
      rintro obj ⟨inn, hobj⟩
      exact hexecute hobj
  | .prepareOnly =>
      refine hprepare.bind ?_
      rintro obj ⟨out, hobj⟩
      exact .normally ⟨out, none, hobj⟩

end

/-- A construction that ends in this way releases everything, or leaves the handle open. -/
theorem lifetime_released_or_open {ok : Bool} {r : Except StatementObject StatementObject}
    (h : Ends (fun obj => ∃ out inn, Owns handle (some out) inn obj) (fun obj => StatementOpen obj.events) ok r) :
    if ok then ReleasedOnce (StatementObject.lifetime r) else StatementOpen (StatementObject.lifetime r) := by
  cases h with
  | normally hP =>
      obtain ⟨out, inn, howns⟩ := hP
      exact howns.destroy
  | raising hQ => exact hQ

section

variable (D : ValueApi) (calls : LibraryCalls) (ctor : StatementConstructor)

theorem construct_eq : calls.construct D ctor = check calls.allocate {} >>= fun obj =>
    calls.prepareAllocated obj.allocateStatement >>= fun obj => calls.finish D obj ctor := by
  unfold LibraryCalls.construct LibraryCalls.prepareStatement
  exact bind_assoc _ _ _

/-- Without a handle nothing else is allocated. -/
theorem lifetime_not_allocated (h : calls.allocate = false) : calls.lifetime D ctor = [] := by
  unfold LibraryCalls.lifetime
  rw [construct_eq, h]
  rfl

theorem lifetime_allocated (h : calls.allocate = true) :
    if calls.succeeds D ctor then ReleasedOnce (calls.lifetime D ctor) else StatementOpen (calls.lifetime D ctor) := by
  unfold LibraryCalls.lifetime
  rw [construct_eq, h]
  exact lifetime_released_or_open (finish_ends D calls rfl ctor owns_allocateStatement)

/-- **Any raise behind the allocation leaves the handle open.** -/
theorem raise_leaves_statement_open (hallocate : calls.allocate = true) (hraise : calls.succeeds D ctor = false) :
    StatementOpen (calls.lifetime D ctor) := by
  have h := lifetime_allocated D calls ctor hallocate
  rw [hraise] at h
  exact h

/-- **Everything is released exactly once** when the handle is not allocated, or nothing raises behind that. -/
theorem statement_releases_iff :
    ReleasedOnce (calls.lifetime D ctor) ↔ calls.allocate = false ∨ calls.succeeds D ctor = true := by
  cases hallocate : calls.allocate with
  | false =>
      rw [lifetime_not_allocated D calls ctor hallocate]
      exact iff_of_true (fun _ hr => nomatch hr) (.inl rfl)
  | true =>
      cases hsucceeds : calls.succeeds D ctor with
      | false =>
          have hopen := raise_leaves_statement_open D calls ctor hallocate hsucceeds
          exact iff_of_false hopen.not_released (by simp)
      | true =>
          have h := lifetime_allocated D calls ctor hallocate
          rw [hsucceeds] at h
          exact iff_of_true h (.inr rfl)

end

/-- A query that the server refuses when it is prepared. -/
def refusedQuery : LibraryCalls where
  allocate := true
  outMemory := true
  prepare := none
  outMemoryAgain := true
  describe := true
  buffers := true
  inMemory := true
  describeBind := some []
  inMemoryAgain := true
  describeBindAgain := some []
  execute := true

/-- **A refused query leaves its statement handle open**, and its descriptor area is not freed. -/
theorem refusedQuery_leaks :
    refusedQuery.lifetime plainApi .plain = [.allocated ⟨.statement, 0⟩, .allocated ⟨.sqlda, 1⟩] ∧
    ¬ReleasedOnce (refusedQuery.lifetime plainApi .plain) := by
  have hevents : refusedQuery.lifetime plainApi .plain = [.allocated ⟨.statement, 0⟩, .allocated ⟨.sqlda, 1⟩] := rfl
  refine ⟨hevents, ?_⟩
  rw [hevents]
  intro hreleased
  have hone := hreleased ⟨.statement, 0⟩ List.mem_cons_self
  cases hone

end FirebirdScan
