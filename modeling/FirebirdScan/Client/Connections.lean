import FirebirdScan.Client.Attach
import FirebirdScan.Lib.Run
import Mathlib.Data.List.Nodup
import Mathlib.Data.List.Perm.Basic

/-!
# `Client.Connections` — the connections of a process, and what they hold on the server (`FirebirdConnection`)

A connection is an attachment and a transaction, which its constructor opens and its destructor closes. The constructor
may raise between the two, and no destructor follows then; so it detaches by itself. What cannot be released stays open:
neither place reports an error of a detach.

The state is what the server has open, with the objects that are alive. Over every run, `connections_own`: the objects
that are alive hold one attachment and one transaction each, and apart from those the server has open exactly what
failed to detach.
-/

namespace FirebirdScan

open Run

/-! ## The client library -/

/-- What is open on the server, by handles; `0` is none. -/
structure ServerHandles where
  attachments : List Nat := []
  /-- a transaction, and its attachment -/
  transactions : List (Nat × Nat) := []
  next : Nat := 1

namespace ServerHandles

variable (s : ServerHandles)

/-- `isc_attach_database`, when it succeeds: the next handle is that of an attachment. -/
def attached : ServerHandles := { s with attachments := s.attachments ++ [s.next], next := s.next + 1 }

/-- `isc_start_transaction`, when it succeeds. -/
def started (db : Nat) : ServerHandles :=
  { s with transactions := s.transactions ++ [(s.next, db)], next := s.next + 1 }

/-- `isc_rollback_transaction`. -/
def rolledBack (tr : Nat) (succeeds : Bool) : ServerHandles :=
  if succeeds then { s with transactions := s.transactions.filter fun t => t.1 != tr } else s

/-- `isc_detach_database`, which takes the transactions with it. -/
def detached (db : Nat) (succeeds : Bool) : ServerHandles :=
  if succeeds then
    { s with
      attachments := s.attachments.filter fun a => a != db
      transactions := s.transactions.filter fun t => t.2 != db }
  else s

end ServerHandles

/-! ## The object -/

/-- `FirebirdConnection`; a handle of `0` is none. -/
structure ConnectionObject where
  info : FirebirdConnectionInfo
  id : Int64
  db : Nat := 0
  tr : Nat := 0

/-- The outcomes of the calls of a constructor. -/
structure ConstructorCalls where
  attach : IscAttachDatabase
  startTransaction : Except Bytes Unit
  detach : Bool

/-- The process: what the server has open, the counter of the ids, and the objects that are alive. -/
structure ConnectionWorld where
  server : ServerHandles := {}
  /-- `g_firebird_connection_id_counter` -/
  counter : Int64 := 0
  live : List ConnectionObject := []

/-- `StartReadOnlyTransaction`: the error it throws. -/
def startReadOnlyTransaction (status : Except Bytes Unit) : Except ConnectError Unit :=
  match status with
  | .ok () => .ok ()
  | .error status => .error (.io (utf8 "isc_start_transaction: " ++ status))

/-- The body of `FirebirdConnection::FirebirdConnection`: the object, or what it throws, and what it leaves open. -/
def constructConnection (server : ServerHandles) (obj : ConnectionObject) (calls : ConstructorCalls) :
    Except ConnectError ConnectionObject × ServerHandles :=
  match validateClientCharset obj.info.charset with
  | .error e => (.error e, server)
  | .ok () =>
      match attach calls.attach obj.info with
      | .error e => (.error e, server)
      | .ok () =>
          let obj := { obj with db := server.next }
          let server := server.attached
          match startReadOnlyTransaction calls.startTransaction with
          | .error e => (.error e, if obj.db ≠ 0 then server.detached obj.db calls.detach else server)
          | .ok () => (.ok { obj with tr := server.next }, server.started obj.db)

/-- `~FirebirdConnection`, with the outcomes of its two calls. -/
def destroyConnection (server : ServerHandles) (obj : ConnectionObject) (rollback detach : Bool) : ServerHandles :=
  let server := if obj.tr ≠ 0 then server.rolledBack obj.tr rollback else server
  if obj.db ≠ 0 then server.detached obj.db detach else server

/-! ## Runs -/

inductive ConnectionEvent where
  | construct (info : FirebirdConnectionInfo) (calls : ConstructorCalls)
  /-- the owner of an object lets go of it -/
  | destroy (i : Nat) (rollback detach : Bool)

namespace ConnectionWorld

/-- A step. An id is taken before anything can fail. -/
def step (w : ConnectionWorld) : ConnectionEvent → ConnectionWorld
  | .construct info calls =>
      match constructConnection w.server { info, id := w.counter } calls with
      | (.ok obj, server) => { server, counter := w.counter + 1, live := w.live ++ [obj] }
      | (.error _, server) => { w with server, counter := w.counter + 1 }
  | .destroy i rollback detach =>
      match w.live[i]? with
      | some obj => { w with server := destroyConnection w.server obj rollback detach, live := w.live.eraseIdx i }
      | none => w

/-- An owner has its object. -/
def allowed (w : ConnectionWorld) : ConnectionEvent → Prop
  | .construct _ _ => True
  | .destroy i _ _ => i < w.live.length

end ConnectionWorld

/-- The event leaves an attachment open that nothing owns: a detach has failed. -/
def ConnectionEvent.leaks : ConnectionEvent → Bool
  | .construct info calls =>
      (validateClientCharset info.charset).isOk && (attach calls.attach info).isOk && !calls.startTransaction.isOk &&
        !calls.detach
  | .destroy _ _ detach => !detach

/-! ## What is held -/

/-- Every object has an attachment and a transaction on it, and the server has nothing open besides, except what is
    leaked. -/
structure ConnectionsOwned (w : ConnectionWorld) (leaked : List Nat) : Prop where
  attachments : w.server.attachments.Perm (w.live.map ConnectionObject.db ++ leaked)
  separate : w.server.attachments.Nodup
  next_pos : 0 < w.server.next
  known : ∀ a ∈ w.server.attachments, 0 < a ∧ a < w.server.next
  started : ∀ obj ∈ w.live, 0 < obj.tr ∧ (obj.tr, obj.db) ∈ w.server.transactions
  transactions : ∀ t ∈ w.server.transactions, (∃ obj ∈ w.live, t = (obj.tr, obj.db)) ∨ t.2 ∈ leaked
  transactions_separate : (w.server.transactions.map Prod.fst).Nodup
  transactions_known : ∀ t ∈ w.server.transactions, t.1 < w.server.next

namespace ConnectionsOwned

variable {w : ConnectionWorld} {leaked : List Nat}

theorem mem_attachments (h : ConnectionsOwned w leaked) {a : Nat} :
    a ∈ w.server.attachments ↔ (∃ obj ∈ w.live, obj.db = a) ∨ a ∈ leaked := by
  rw [h.attachments.mem_iff, List.mem_append, List.mem_map]

/-- A transaction is on an open attachment. -/
theorem transaction_attached (h : ConnectionsOwned w leaked) {t : Nat × Nat} (ht : t ∈ w.server.transactions) :
    t.2 ∈ w.server.attachments := by
  rw [h.mem_attachments]
  rcases h.transactions t ht with ⟨obj, hobj, rfl⟩ | hleaked
  · exact .inl ⟨obj, hobj, rfl⟩
  · exact .inr hleaked

/-- Another counter and nothing else. -/
theorem of_eq {w' : ConnectionWorld} (h : ConnectionsOwned w leaked) (hserver : w'.server = w.server)
    (hlive : w'.live = w.live) : ConnectionsOwned w' leaked := by
  obtain ⟨server, counter, live⟩ := w'
  obtain rfl : server = w.server := hserver
  obtain rfl : live = w.live := hlive
  exact ⟨h.attachments, h.separate, h.next_pos, h.known, h.started, h.transactions, h.transactions_separate,
    h.transactions_known⟩

/-- The attachment that is opened next is a new one. -/
theorem next_not_mem (h : ConnectionsOwned w leaked) : w.server.next ∉ w.server.attachments :=
  fun hmem => Nat.lt_irrefl _ (h.known _ hmem).2

/-- The attachments of a list are each in it once. -/
theorem nodup_owned (h : ConnectionsOwned w leaked) : (w.live.map ConnectionObject.db ++ leaked).Nodup :=
  h.attachments.nodup_iff.mp h.separate

/-- An attachment is opened, and nothing owns it yet. -/
theorem attached (h : ConnectionsOwned w leaked) :
    ConnectionsOwned { w with server := w.server.attached } (leaked ++ [w.server.next]) where
  attachments := by
    show (w.server.attachments ++ [w.server.next]).Perm _
    rw [← List.append_assoc]
    exact h.attachments.append_right _
  separate := by
    show (w.server.attachments ++ [w.server.next]).Nodup
    rw [List.nodup_append]
    refine ⟨h.separate, List.nodup_singleton _, ?_⟩
    intro a ha b hb hab
    rw [List.mem_singleton.mp hb] at hab
    exact h.next_not_mem (hab ▸ ha)
  next_pos := Nat.succ_pos _
  known := by
    intro a ha
    rcases List.mem_append.mp ha with hold | hnew
    · exact ⟨(h.known a hold).1, Nat.lt_succ_of_lt (h.known a hold).2⟩
    · rw [List.mem_singleton.mp hnew]
      exact ⟨h.next_pos, Nat.lt_succ_self _⟩
  started := h.started
  transactions := by
    intro t ht
    rcases h.transactions t ht with hlive | hleaked
    · exact .inl hlive
    · exact .inr (List.mem_append_left _ hleaked)
  transactions_separate := h.transactions_separate
  transactions_known := fun t ht => Nat.lt_succ_of_lt (h.transactions_known t ht)

/-- A new object takes an attachment without transactions, and starts its own on it. -/
theorem adopted {obj : ConnectionObject} (h : ConnectionsOwned w (leaked ++ [obj.db])) (htr : obj.tr = w.server.next)
    (hunused : ∀ t ∈ w.server.transactions, t.2 ≠ obj.db) :
    ConnectionsOwned { w with server := w.server.started obj.db, live := w.live ++ [obj] } leaked where
  attachments := by
    show w.server.attachments.Perm ((w.live ++ [obj]).map ConnectionObject.db ++ leaked)
    refine h.attachments.trans ?_
    rw [List.map_append, List.append_assoc]
    exact List.perm_append_comm.append_left _
  separate := h.separate
  next_pos := Nat.succ_pos _
  known := fun a ha => ⟨(h.known a ha).1, Nat.lt_succ_of_lt (h.known a ha).2⟩
  started := by
    intro c hc
    show 0 < c.tr ∧ (c.tr, c.db) ∈ w.server.transactions ++ [(w.server.next, obj.db)]
    rcases List.mem_append.mp hc with hold | hnew
    · exact ⟨(h.started c hold).1, List.mem_append_left _ (h.started c hold).2⟩
    · rw [List.mem_singleton.mp hnew, htr]
      exact ⟨h.next_pos, List.mem_append_right _ (List.mem_singleton_self _)⟩
  transactions := by
    intro t ht
    rcases List.mem_append.mp ht with hold | hnew
    · rcases h.transactions t hold with ⟨c, hc, rfl⟩ | hleaked
      · exact .inl ⟨c, List.mem_append_left _ hc, rfl⟩
      · refine .inr ((List.mem_append.mp hleaked).resolve_right ?_)
        intro hdb
        exact hunused t hold (List.mem_singleton.mp hdb)
    · refine .inl ⟨obj, List.mem_append_right _ (List.mem_singleton_self _), ?_⟩
      rw [List.mem_singleton.mp hnew, htr]
  transactions_separate := by
    show ((w.server.transactions ++ [(w.server.next, obj.db)]).map Prod.fst).Nodup
    rw [List.map_append, List.nodup_append]
    refine ⟨h.transactions_separate, List.nodup_singleton _, ?_⟩
    intro a ha b hb hab
    obtain ⟨t, ht, rfl⟩ := List.mem_map.mp ha
    rw [List.mem_singleton.mp hb] at hab
    exact Nat.lt_irrefl _ (hab ▸ h.transactions_known t ht)
  transactions_known := by
    intro t ht
    rcases List.mem_append.mp ht with hold | hnew
    · exact Nat.lt_succ_of_lt (h.transactions_known t hold)
    · rw [List.mem_singleton.mp hnew]
      exact Nat.lt_succ_self _

/-- What nothing owns is neither the attachment of an object nor leaked a second time. -/
theorem not_mem_of_leaked {db : Nat} (h : ConnectionsOwned w (leaked ++ [db])) :
    db ∉ w.live.map ConnectionObject.db ++ leaked := by
  have hnodup := h.nodup_owned
  rw [← List.append_assoc, List.nodup_append] at hnodup
  intro hmem
  exact hnodup.2.2 db hmem db (List.mem_singleton_self db) rfl

/-- What nothing owns is detached. -/
theorem detached {db : Nat} (h : ConnectionsOwned w (leaked ++ [db])) :
    ConnectionsOwned { w with server := w.server.detached db true } leaked where
  attachments := by
    show (w.server.attachments.filter fun a => a != db).Perm _
    refine (h.attachments.filter _).trans (List.Perm.of_eq ?_)
    have hkept : (w.live.map ConnectionObject.db ++ leaked).filter (fun a => a != db) =
        w.live.map ConnectionObject.db ++ leaked := by
      rw [List.filter_eq_self]
      intro a ha
      exact bne_iff_ne.mpr fun hdb => h.not_mem_of_leaked (hdb ▸ ha)
    rw [← List.append_assoc, List.filter_append, hkept]
    simp
  separate := h.separate.filter _
  next_pos := h.next_pos
  known := fun a ha => h.known a (List.mem_of_mem_filter ha)
  started := by
    intro c hc
    refine ⟨(h.started c hc).1, List.mem_filter.mpr ⟨(h.started c hc).2, bne_iff_ne.mpr ?_⟩⟩
    rintro rfl
    exact h.not_mem_of_leaked (List.mem_append_left _ (List.mem_map_of_mem hc))
  transactions := by
    intro t ht
    obtain ⟨hold, hother⟩ := List.mem_filter.mp ht
    rcases h.transactions t hold with hlive | hleaked
    · exact .inl hlive
    · refine .inr ((List.mem_append.mp hleaked).resolve_right ?_)
      intro hdb
      exact bne_iff_ne.mp hother (List.mem_singleton.mp hdb)
  transactions_separate := h.transactions_separate.sublist (List.filter_sublist.map Prod.fst)
  transactions_known := fun t ht => h.transactions_known t (List.mem_of_mem_filter ht)

/-- An object goes away: its attachment and its transaction are nobody's. -/
theorem disowned {i : Nat} {obj : ConnectionObject} (h : ConnectionsOwned w leaked) (hobj : w.live[i]? = some obj) :
    ConnectionsOwned { w with live := w.live.eraseIdx i } (leaked ++ [obj.db]) where
  attachments := by
    obtain ⟨hlt, rfl⟩ := List.getElem?_eq_some_iff.mp hobj
    refine h.attachments.trans ?_
    have hperm := ((List.getElem_cons_eraseIdx_perm hlt).map ConnectionObject.db).symm
    refine (hperm.append_right leaked).trans ?_
    rw [List.map_cons, List.cons_append, ← List.append_assoc]
    exact (List.perm_append_singleton _ _).symm
  separate := h.separate
  next_pos := h.next_pos
  known := h.known
  started := fun c hc => h.started c (List.mem_of_mem_eraseIdx hc)
  transactions := by
    intro t ht
    rcases h.transactions t ht with ⟨c, hc, rfl⟩ | hleaked
    · obtain ⟨hlt, rfl⟩ := List.getElem?_eq_some_iff.mp hobj
      rcases List.mem_cons.mp ((List.getElem_cons_eraseIdx_perm hlt).mem_iff.mpr hc) with hself | hother
      · rw [hself]
        exact .inr (List.mem_append_right _ (List.mem_singleton_self _))
      · exact .inl ⟨c, hother, rfl⟩
    · exact .inr (List.mem_append_left _ hleaked)
  transactions_separate := h.transactions_separate
  transactions_known := h.transactions_known

/-- A transaction that no object has is rolled back, or is not. -/
theorem rolledBack {tr : Nat} (h : ConnectionsOwned w leaked) (hother : ∀ obj ∈ w.live, obj.tr ≠ tr)
    (succeeds : Bool) : ConnectionsOwned { w with server := w.server.rolledBack tr succeeds } leaked := by
  cases succeeds with
  | false => exact h.of_eq rfl rfl
  | true =>
      refine ⟨h.attachments, h.separate, h.next_pos, h.known, ?_, ?_, ?_, ?_⟩
      · intro c hc
        exact ⟨(h.started c hc).1, List.mem_filter.mpr ⟨(h.started c hc).2, bne_iff_ne.mpr (hother c hc)⟩⟩
      · intro t ht
        exact h.transactions t (List.mem_of_mem_filter ht)
      · exact h.transactions_separate.sublist (List.filter_sublist.map Prod.fst)
      · intro t ht
        exact h.transactions_known t (List.mem_of_mem_filter ht)

/-- The transaction of an object is its own. -/
theorem tr_ne {i : Nat} {obj c : ConnectionObject} (h : ConnectionsOwned w leaked) (hobj : w.live[i]? = some obj)
    (hc : c ∈ w.live.eraseIdx i) : c.tr ≠ obj.tr := by
  intro htr
  have hmem := h.started obj (List.mem_of_getElem? hobj)
  have hmem' := h.started c (List.mem_of_mem_eraseIdx hc)
  have hsame : (c.tr, c.db) = (obj.tr, obj.db) :=
    List.inj_on_of_nodup_map h.transactions_separate hmem'.2 hmem.2 htr
  -- then two objects have one attachment
  have hdb := (h.disowned hobj).not_mem_of_leaked
  apply hdb
  rw [← (Prod.mk.inj hsame).2]
  exact List.mem_append_left _ (List.mem_map_of_mem hc)

end ConnectionsOwned

/-! ## A step -/

/-- What a constructor can do: raise before anything is open, raise behind the attach, or succeed. -/
theorem constructConnection_cases {server : ServerHandles} (obj : ConnectionObject) (calls : ConstructorCalls)
    (hnext : 0 < server.next) :
    (∃ e, constructConnection server obj calls = (.error e, server) ∧
        (ConnectionEvent.construct obj.info calls).leaks = false) ∨
      (∃ e, constructConnection server obj calls =
          (.error e, server.attached.detached server.next calls.detach) ∧
        (ConnectionEvent.construct obj.info calls).leaks = !calls.detach) ∨
      (constructConnection server obj calls =
          (.ok { obj with db := server.next, tr := server.attached.next }, server.attached.started server.next) ∧
        (ConnectionEvent.construct obj.info calls).leaks = false) := by
  unfold constructConnection
  simp only [ConnectionEvent.leaks]
  split
  next e hvalid =>
    rw [hvalid]
    exact .inl ⟨e, rfl, rfl⟩
  next hvalid =>
    rw [hvalid]
    split
    next e hattach =>
      rw [hattach]
      exact .inl ⟨e, rfl, rfl⟩
    next hattach =>
      rw [hattach, if_pos (Nat.ne_of_gt hnext)]
      unfold startReadOnlyTransaction
      cases calls.startTransaction with
      | error status => exact .inr (.inl ⟨_, rfl, rfl⟩)
      | ok _ => exact .inr (.inr ⟨rfl, rfl⟩)

section Step

variable {w : ConnectionWorld} {leaked : List Nat}

/-- A constructor leaves an attachment open without an owner only if it cannot detach it. -/
theorem ConnectionsOwned.construct (h : ConnectionsOwned w leaked) (info : FirebirdConnectionInfo)
    (calls : ConstructorCalls) : ∃ more, ConnectionsOwned (w.step (.construct info calls)) (leaked ++ more) ∧
      more.length = if (ConnectionEvent.construct info calls).leaks then 1 else 0 := by
  rcases constructConnection_cases { info, id := w.counter } calls h.next_pos with
    ⟨e, hresult, hleaks⟩ | ⟨e, hresult, hleaks⟩ | ⟨hresult, hleaks⟩
  · simp only [ConnectionWorld.step, hresult, hleaks]
    refine ⟨[], ?_, rfl⟩
    rw [List.append_nil]
    exact h.of_eq rfl rfl
  · simp only [ConnectionWorld.step, hresult, hleaks]
    cases calls.detach with
    | true =>
        refine ⟨[], ?_, rfl⟩
        rw [List.append_nil]
        exact h.attached.detached.of_eq rfl rfl
    | false => exact ⟨[w.server.next], h.attached.of_eq rfl rfl, rfl⟩
  · simp only [ConnectionWorld.step, hresult, hleaks]
    refine ⟨[], ?_, rfl⟩
    rw [List.append_nil]
    have hunused : ∀ t ∈ w.server.attached.transactions, t.2 ≠ w.server.next := by
      intro t ht hdb
      exact h.next_not_mem (hdb ▸ h.transaction_attached ht)
    have hadopted := @ConnectionsOwned.adopted { w with server := w.server.attached } leaked
      { info, id := w.counter, db := w.server.next, tr := w.server.attached.next } h.attached rfl hunused
    exact hadopted.of_eq rfl rfl

/-- So does a destructor. -/
theorem ConnectionsOwned.destroy {i : Nat} (h : ConnectionsOwned w leaked) (hi : i < w.live.length)
    (rollback detach : Bool) : ∃ more, ConnectionsOwned (w.step (.destroy i rollback detach)) (leaked ++ more) ∧
      more.length = if (ConnectionEvent.destroy i rollback detach).leaks then 1 else 0 := by
  have hobj := List.getElem?_eq_getElem hi
  have hdisowned := (h.disowned hobj).rolledBack (fun c hc => h.tr_ne hobj hc) rollback
  have htr := (h.started _ (List.getElem_mem hi)).1
  have hdb := (h.known w.live[i].db (h.mem_attachments.mpr (.inl ⟨_, List.getElem_mem hi, rfl⟩))).1
  simp only [ConnectionWorld.step, hobj, destroyConnection, ConnectionEvent.leaks]
  rw [if_pos (Nat.ne_of_gt htr), if_pos (Nat.ne_of_gt hdb)]
  cases detach with
  | true =>
      refine ⟨[], ?_, rfl⟩
      rw [List.append_nil]
      exact hdisowned.detached
  | false => exact ⟨[w.live[i].db], hdisowned, rfl⟩

end Step

/-! ## Ids -/

/-- The ids are those of different drawings. -/
structure IdsDrawn (w : ConnectionWorld) (drawn : Nat) : Prop where
  counter : w.counter = Int64.ofNat drawn
  ids : ∃ ks, List.Sublist ks (List.range drawn) ∧ w.live.map ConnectionObject.id = ks.map Int64.ofNat

/-- The event draws an id. -/
def ConnectionEvent.draws : ConnectionEvent → Bool
  | .construct _ _ => true
  | .destroy _ _ _ => false

/-- A constructor keeps the id. -/
theorem constructConnection_id {server server' : ServerHandles} {obj obj' : ConnectionObject} {calls : ConstructorCalls}
    (h : constructConnection server obj calls = (.ok obj', server')) : obj'.id = obj.id := by
  unfold constructConnection at h
  split at h
  · cases h
  · split at h
    · cases h
    · dsimp only at h
      split at h
      · cases h
      · cases h
        rfl

section Ids

variable {w : ConnectionWorld} {drawn : Nat}

theorem IdsDrawn.construct (h : IdsDrawn w drawn) (info : FirebirdConnectionInfo) (calls : ConstructorCalls) :
    IdsDrawn (w.step (.construct info calls)) (drawn + 1) := by
  obtain ⟨ks, hks, hids⟩ := h.ids
  have hcounter : w.counter + 1 = Int64.ofNat (drawn + 1) := by
    rw [h.counter]
    exact (Int64.ofNat_add drawn 1).symm
  have hkept : ks.Sublist (List.range (drawn + 1)) := by
    rw [List.range_succ]
    exact hks.trans (List.sublist_append_left _ _)
  unfold ConnectionWorld.step
  dsimp only
  split
  next obj server hresult =>
    have hid : obj.id = Int64.ofNat drawn := (constructConnection_id hresult).trans h.counter
    refine ⟨hcounter, ks ++ [drawn], ?_, ?_⟩
    · rw [List.range_succ]
      exact hks.append (List.Sublist.refl _)
    · rw [List.map_append, List.map_append, hids, List.map_singleton, List.map_singleton, hid]
  next e server hresult => exact ⟨hcounter, ks, hkept, hids⟩

theorem IdsDrawn.destroy (h : IdsDrawn w drawn) (i : Nat) (rollback detach : Bool) :
    IdsDrawn (w.step (.destroy i rollback detach)) drawn := by
  obtain ⟨ks, hks, hids⟩ := h.ids
  unfold ConnectionWorld.step
  dsimp only
  split
  · refine ⟨h.counter, ks.eraseIdx i, (List.eraseIdx_sublist _ _).trans hks, ?_⟩
    rw [← List.eraseIdx_map, ← List.eraseIdx_map, hids]
  · exact h

/-- Fewer drawings than there are ids make no two of them equal. -/
theorem IdsDrawn.nodup (h : IdsDrawn w drawn) (hdrawn : drawn ≤ 2 ^ 64) : (w.live.map ConnectionObject.id).Nodup := by
  obtain ⟨ks, hks, hids⟩ := h.ids
  rw [hids]
  refine List.Nodup.map_on ?_ (List.nodup_range.sublist hks)
  intro a ha b hb hab
  have hlt : ∀ k ∈ ks, k < 2 ^ 64 := fun k hk => Nat.lt_of_lt_of_le (List.mem_range.mp (hks.subset hk)) hdrawn
  have hbits : a % 2 ^ 64 = b % 2 ^ 64 := congrArg (fun x : Int64 => x.toBitVec.toNat) hab
  rwa [Nat.mod_eq_of_lt (hlt a ha), Nat.mod_eq_of_lt (hlt b hb)] at hbits

end Ids

/-! ## Runs -/

/-- **Nothing is lost but what cannot be detached.** In every state of the process, each connection that is alive has an
    attachment and a transaction that no other has; the server has nothing open besides, but one attachment for each
    detach that has failed, with what is on it; and no two connections have one id, as long as the ids last. -/
theorem connections_own {events : List ConnectionEvent}
    (hmeets : Meets ConnectionWorld.step ConnectionWorld.allowed {} events) :
    (∃ leaked, ConnectionsOwned (run ConnectionWorld.step {} events) leaked ∧
        leaked.length = events.countP ConnectionEvent.leaks) ∧
      (events.countP ConnectionEvent.draws ≤ 2 ^ 64 →
        ((run ConnectionWorld.step {} events).live.map ConnectionObject.id).Nodup) := by
  suffices hrun : (∃ leaked, ConnectionsOwned (run ConnectionWorld.step {} events) leaked ∧
      leaked.length = events.countP ConnectionEvent.leaks) ∧
      IdsDrawn (run ConnectionWorld.step {} events) (events.countP ConnectionEvent.draws) from
    ⟨hrun.1, hrun.2.nodup⟩
  induction events using List.reverseRecOn with
  | nil =>
      refine ⟨⟨[], ⟨.refl _, List.nodup_nil, Nat.one_pos, ?_, ?_, ?_, List.nodup_nil, ?_⟩, rfl⟩, ?_⟩
      · exact List.forall_mem_nil _
      · exact List.forall_mem_nil _
      · exact List.forall_mem_nil _
      · exact List.forall_mem_nil _
      · exact ⟨rfl, [], .slnil, rfl⟩
  | append_singleton events event ih =>
      obtain ⟨hbefore, hallowed⟩ := meets_concat.mp hmeets
      obtain ⟨⟨leaked, howned, hcount⟩, hnumbered⟩ := ih hbefore
      rw [run_concat, List.countP_append, List.countP_append, List.countP_singleton, List.countP_singleton]
      cases event with
      | construct info calls =>
          obtain ⟨more, howned', hmore⟩ := howned.construct info calls
          refine ⟨⟨_, howned', ?_⟩, hnumbered.construct info calls⟩
          rw [List.length_append, hcount, hmore]
      | destroy i rollback detach =>
          obtain ⟨more, howned', hmore⟩ := howned.destroy hallowed rollback detach
          refine ⟨⟨_, howned', ?_⟩, hnumbered.destroy i rollback detach⟩
          rw [List.length_append, hcount, hmore]

/-- A connection is made, a second one fails behind its attach and cannot detach, and the first one goes away. -/
def lostDetach : List ConnectionEvent :=
  [.construct auditConnection ⟨fun _ => .ok (), .ok (), true⟩,
    .construct auditConnection ⟨fun _ => .ok (), .error (utf8 "connection shutdown"), false⟩, .destroy 0 true true]

theorem connections_own_lostDetach :
    (∃ leaked, ConnectionsOwned (run ConnectionWorld.step {} lostDetach) leaked ∧
        leaked.length = lostDetach.countP ConnectionEvent.leaks) ∧
      (lostDetach.countP ConnectionEvent.draws ≤ 2 ^ 64 →
        ((run ConnectionWorld.step {} lostDetach).live.map ConnectionObject.id).Nodup) := by
  apply connections_own
  exact ⟨trivial, trivial, Nat.zero_lt_one, trivial⟩

end FirebirdScan
