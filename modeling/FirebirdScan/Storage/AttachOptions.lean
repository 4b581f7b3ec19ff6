import FirebirdScan.Lib.Raising
import FirebirdScan.Pool.ConnectionPool
import FirebirdScan.Scanner.ScanBind
import Mathlib.Data.List.Nodup
import Mathlib.Data.List.Perm.Basic
import Mathlib.Logic.Function.Basic

/-!
# `Storage.AttachOptions` — `ATTACH … (TYPE firebird, …)` (`FirebirdAttach`)

The path is parsed as a connection string, each option replaces what the string says, and the settings of the session
give the keepalive and the pool. The options come in a hash map, so in any order.

`attach_agrees` compares this with `firebird_scan`, whose parameters have the same names: the same connection, in
whatever order the options come, but for the check of the charset. That is made when the catalog first connects.
-/

namespace FirebirdScan

open FirebirdConnectionInfo Raising

/-! ## The source -/

/-- A `Value`, as an option is read: its `ToString`, and the two casts that may throw. -/
structure OptionValue where
  text : Bytes
  int32 : Except Bytes Int32 := .error []
  bool : Except Bytes Bool := .error []

inductive AttachError where
  | bind (e : ScanBindError)
  | conversion (message : Bytes)

/-- The variables of `BuildConnectionInfo`. -/
structure AttachedConnection where
  conn : FirebirdConnectionInfo
  noneEncoding : NoneEncoding
  nonePushdown : Bool
  numericWidenInt64 : Bool

/-- One round of the loop over the options. -/
def setAttachOption (st : AttachedConnection) (kv : Bytes × OptionValue) : Except AttachError AttachedConnection :=
  if kv.1 = utf8 "user" then .ok { st with conn := { st.conn with user := kv.2.text } }
  else if kv.1 = utf8 "password" then .ok { st with conn := { st.conn with password := kv.2.text } }
  else if kv.1 = utf8 "charset" then .ok { st with conn := { st.conn with charset := kv.2.text } }
  else if kv.1 = utf8 "role" then .ok { st with conn := { st.conn with role := kv.2.text } }
  else if kv.1 = utf8 "dialect" then
    (kv.2.int32.mapError .conversion).map fun n => { st with conn := { st.conn with dialect := n } }
  else if kv.1 = utf8 "none_encoding" then
    ((parseNoneEncoding kv.2.text).mapError .bind).map fun mode => { st with noneEncoding := mode }
  else if kv.1 = utf8 "none_pushdown" then
    (kv.2.bool.mapError .conversion).map fun b => { st with nonePushdown := b }
  else if kv.1 = utf8 "numeric_widen_int64" then
    (kv.2.bool.mapError .conversion).map fun b => { st with numericWidenInt64 := b }
  else .ok st

/-- `BuildConnectionInfo`. -/
def buildConnectionInfo (path : Bytes) (options : List (Bytes × OptionValue)) :
    Except AttachError AttachedConnection := do
  let conn ← (parseConnection path).mapError .bind
  let noneEncoding ← (seededNoneEncoding conn).mapError .bind
  options.foldlM setAttachOption ⟨conn, noneEncoding, conn.nonePushdown, false⟩

/-- The settings of the session, unless they are missing or `NULL`. -/
structure SessionSettings where
  poolEnabled : Option Bool := none
  poolMaxSize : Option Int64 := none
  poolIdleTimeoutMs : Option Int64 := none
  dummyPacketInterval : Option Int64 := none

/-- `BuildPoolConfig`. -/
def buildPoolConfig (settings : SessionSettings) : Except ScanBindError FirebirdConnectionPoolConfig :=
  let maxSize := settings.poolMaxSize.getD 0
  let idleTimeoutMs := settings.poolIdleTimeoutMs.getD 0
  if maxSize < 0 then
    .error (.binder (utf8 "firebird_pool_max_size must be >= 0 (0 = unlimited), got " ++ decimalText maxSize.toInt))
  else if idleTimeoutMs < 0 then
    .error (.binder (utf8 "firebird_pool_idle_timeout_ms must be >= 0 (0 = no expiry), got " ++
      decimalText idleTimeoutMs.toInt))
  else .ok { enabled := settings.poolEnabled.getD true, maxSize := maxSize.toInt, idleTimeoutMs := idleTimeoutMs.toInt }

/-- What `FirebirdCatalog` is made of. -/
structure FirebirdCatalog where
  connInfo : FirebirdConnectionInfo
  noneEncoding : NoneEncoding
  nonePushdown : Bool
  numericWidenInt64 : Bool
  poolConfig : FirebirdConnectionPoolConfig

/-- `FirebirdAttach`. -/
def firebirdAttach (settings : SessionSettings) (path : Bytes) (options : List (Bytes × OptionValue)) :
    Except AttachError FirebirdCatalog := do
  let built ← buildConnectionInfo path options
  (checkKeepalive (settings.dummyPacketInterval.getD 0)).mapError .bind
  let poolConfig ← (buildPoolConfig settings).mapError .bind
  .ok {
    connInfo := { built.conn with dummyPacketIntervalSecs := settings.dummyPacketInterval.getD 0 }
    noneEncoding := built.noneEncoding
    nonePushdown := built.nonePushdown
    numericWidenInt64 := built.numericWidenInt64
    poolConfig }

/-! ## The options -/

inductive AttachKey where
  | user | password | charset | role | dialect | noneEncoding | nonePushdown | numericWidenInt64
deriving DecidableEq

def AttachKey.text : AttachKey → Bytes
  | .user => utf8 "user"
  | .password => utf8 "password"
  | .charset => utf8 "charset"
  | .role => utf8 "role"
  | .dialect => utf8 "dialect"
  | .noneEncoding => utf8 "none_encoding"
  | .nonePushdown => utf8 "none_pushdown"
  | .numericWidenInt64 => utf8 "numeric_widen_int64"

theorem AttachKey.text_inj {key key' : AttachKey} (h : key.text = key'.text) : key = key' := by
  cases key <;> cases key' <;> first | rfl | exact absurd h (by decide)

/-- The option that has the key. -/
def given (options : List (Bytes × OptionValue)) (key : AttachKey) : Option OptionValue :=
  (options.find? fun kv => kv.1 = key.text).map Prod.snd

/-- An option that is cast: `none` when the cast throws. -/
def castOption {α : Type} (cast : OptionValue → Except Bytes α) (option : Option OptionValue) : Option (Option α) :=
  option.elim (some none) fun v => (cast v).toOption.map some

@[simp] theorem castOption_none {α : Type} (cast : OptionValue → Except Bytes α) :
    castOption cast none = some none := rfl

@[simp] theorem castOption_some {α : Type} (cast : OptionValue → Except Bytes α) (v : OptionValue) :
    castOption cast (some v) = (cast v).toOption.map some := rfl

/-- The options as the parameters of `firebird_scan`, if their values convert. -/
def scanParameters (options : AttachKey → Option OptionValue) : Option ScanParameters := do
  let dialect ← castOption OptionValue.int32 (options .dialect)
  let nonePushdown ← castOption OptionValue.bool (options .nonePushdown)
  let numericWidenInt64 ← castOption OptionValue.bool (options .numericWidenInt64)
  some {
    overrides := {
      user := (options .user).map OptionValue.text
      password := (options .password).map OptionValue.text
      charset := (options .charset).map OptionValue.text
      role := (options .role).map OptionValue.text
      dialect }
    noneEncoding := (options .noneEncoding).map OptionValue.text
    nonePushdown
    numericWidenInt64 }

/-- What parameters make of the variables. -/
def AttachedConnection.apply (st : AttachedConnection) (parameters : ScanParameters) : Option AttachedConnection :=
  (parameters.noneEncoding.elim (some st.noneEncoding) fun s => (parseNoneEncoding s).toOption).map fun mode =>
    { conn := parameters.overrides.apply st.conn
      noneEncoding := mode
      nonePushdown := parameters.nonePushdown.getD st.nonePushdown
      numericWidenInt64 := parameters.numericWidenInt64.getD st.numericWidenInt64 }

section Options

variable {st : AttachedConnection} {options : List (Bytes × OptionValue)} {v : OptionValue}

theorem given_cons_known {key : AttachKey} :
    given ((key.text, v) :: options) = Function.update (given options) key (some v) := by
  funext key'
  unfold given
  by_cases h : key' = key
  · subst h
    rw [Function.update_self, List.find?_cons_of_pos (by simp)]
    rfl
  · have hne : key.text ≠ key'.text := fun heq => h (AttachKey.text_inj heq).symm
    rw [Function.update_of_ne h, List.find?_cons_of_neg (by simp [hne])]

theorem given_cons_unknown {k : Bytes} (h : ∀ key : AttachKey, k ≠ key.text) :
    given ((k, v) :: options) = given options := by
  funext key
  unfold given
  rw [List.find?_cons_of_neg (by simp [h key])]

theorem given_eq_none {key : AttachKey} (h : key.text ∉ options.map Prod.fst) : given options key = none := by
  unfold given
  rw [Option.map_eq_none_iff, List.find?_eq_none]
  intro kv hkv heq
  exact h (List.mem_map.mpr ⟨kv, hkv, of_decide_eq_true heq⟩)

/-- A key that is not known is ignored. -/
theorem setAttachOption_unknown {k : Bytes} (h : ∀ key : AttachKey, k ≠ key.text) :
    setAttachOption st (k, v) = .ok st := by
  unfold setAttachOption
  exact (if_neg (h .user)).trans <| (if_neg (h .password)).trans <| (if_neg (h .charset)).trans <|
    (if_neg (h .role)).trans <| (if_neg (h .dialect)).trans <| (if_neg (h .noneEncoding)).trans <|
    (if_neg (h .nonePushdown)).trans (if_neg (h .numericWidenInt64))

/-- **A known key sets its own field**: together with the options behind it, whose keys are others, it is as if all
    were given at once. -/
theorem setAttachOption_known {rest : AttachKey → Option OptionValue} {key : AttachKey} (hrest : rest key = none) :
    ((setAttachOption st (key.text, v)).toOption.bind fun st => (scanParameters rest).bind st.apply) =
      (scanParameters (Function.update rest key (some v))).bind st.apply := by
  have hother {key' : AttachKey} (h : key' ≠ key) : Function.update rest key (some v) key' = rest key' :=
    Function.update_of_ne h _ _
  have hsame : Function.update rest key (some v) key = some v := Function.update_self _ _ _
  cases key with
  | user =>
      have hset : setAttachOption st (AttachKey.user.text, v) =
          .ok { st with conn := { st.conn with user := v.text } } := rfl
      rw [hset]
      unfold scanParameters
      simp only [hother, hsame, hrest, ne_eq, reduceCtorEq, not_false_eq_true]
      cases castOption OptionValue.int32 (rest .dialect) <;>
        cases castOption OptionValue.bool (rest .nonePushdown) <;>
        cases castOption OptionValue.bool (rest .numericWidenInt64) <;> rfl
  | password =>
      have hset : setAttachOption st (AttachKey.password.text, v) =
          .ok { st with conn := { st.conn with password := v.text } } := rfl
      rw [hset]
      unfold scanParameters
      simp only [hother, hsame, hrest, ne_eq, reduceCtorEq, not_false_eq_true]
      cases castOption OptionValue.int32 (rest .dialect) <;>
        cases castOption OptionValue.bool (rest .nonePushdown) <;>
        cases castOption OptionValue.bool (rest .numericWidenInt64) <;> rfl
  | charset =>
      have hset : setAttachOption st (AttachKey.charset.text, v) =
          .ok { st with conn := { st.conn with charset := v.text } } := rfl
      rw [hset]
      unfold scanParameters
      simp only [hother, hsame, hrest, ne_eq, reduceCtorEq, not_false_eq_true]
      cases castOption OptionValue.int32 (rest .dialect) <;>
        cases castOption OptionValue.bool (rest .nonePushdown) <;>
        cases castOption OptionValue.bool (rest .numericWidenInt64) <;> rfl
  | role =>
      have hset : setAttachOption st (AttachKey.role.text, v) =
          .ok { st with conn := { st.conn with role := v.text } } := rfl
      rw [hset]
      unfold scanParameters
      simp only [hother, hsame, hrest, ne_eq, reduceCtorEq, not_false_eq_true]
      cases castOption OptionValue.int32 (rest .dialect) <;>
        cases castOption OptionValue.bool (rest .nonePushdown) <;>
        cases castOption OptionValue.bool (rest .numericWidenInt64) <;> rfl
  | dialect =>
      have hset : setAttachOption st (AttachKey.dialect.text, v) =
          (v.int32.mapError .conversion).map fun n => { st with conn := { st.conn with dialect := n } } := rfl
      rw [hset]
      unfold scanParameters
      simp only [hother, hsame, hrest, castOption_none, castOption_some, ne_eq, reduceCtorEq, not_false_eq_true]
      cases v.int32 <;>
        cases castOption OptionValue.bool (rest .nonePushdown) <;>
        cases castOption OptionValue.bool (rest .numericWidenInt64) <;> rfl
  | noneEncoding =>
      have hset : setAttachOption st (AttachKey.noneEncoding.text, v) =
          ((parseNoneEncoding v.text).mapError .bind).map fun mode => { st with noneEncoding := mode } := rfl
      rw [hset]
      unfold scanParameters
      simp only [hother, hsame, hrest, ne_eq, reduceCtorEq, not_false_eq_true]
      -- a mode that cannot be read is an error of the option, and of the parameter
      cases hmode : parseNoneEncoding v.text <;> cases castOption OptionValue.int32 (rest .dialect) <;>
        cases castOption OptionValue.bool (rest .nonePushdown) <;>
        cases castOption OptionValue.bool (rest .numericWidenInt64) <;>
        simp [AttachedConnection.apply, hmode, Except.toOption, Except.map, Except.mapError]
  | nonePushdown =>
      have hset : setAttachOption st (AttachKey.nonePushdown.text, v) =
          (v.bool.mapError .conversion).map fun b => { st with nonePushdown := b } := rfl
      rw [hset]
      unfold scanParameters
      simp only [hother, hsame, hrest, castOption_none, castOption_some, ne_eq, reduceCtorEq, not_false_eq_true]
      cases v.bool <;>
        cases castOption OptionValue.int32 (rest .dialect) <;>
        cases castOption OptionValue.bool (rest .numericWidenInt64) <;> rfl
  | numericWidenInt64 =>
      have hset : setAttachOption st (AttachKey.numericWidenInt64.text, v) =
          (v.bool.mapError .conversion).map fun b => { st with numericWidenInt64 := b } := rfl
      rw [hset]
      unfold scanParameters
      simp only [hother, hsame, hrest, castOption_none, castOption_some, ne_eq, reduceCtorEq, not_false_eq_true]
      cases v.bool <;>
        cases castOption OptionValue.int32 (rest .dialect) <;>
        cases castOption OptionValue.bool (rest .nonePushdown) <;> rfl

/-- **The loop over the options**, whose keys are distinct, applies them as parameters. -/
theorem foldlM_setAttachOption (hkeys : (options.map Prod.fst).Nodup) (st : AttachedConnection) :
    (options.foldlM setAttachOption st).toOption = (scanParameters (given options)).bind st.apply := by
  induction options generalizing st with
  | nil => rfl
  | cons kv options ih =>
      obtain ⟨k, v⟩ := kv
      obtain ⟨hnot, hrest⟩ := List.nodup_cons.mp (List.map_cons ▸ hkeys)
      rw [List.foldlM_cons, toOption_bind]
      simp only [ih hrest]
      by_cases hknown : ∃ key : AttachKey, k = key.text
      · obtain ⟨key, rfl⟩ := hknown
        rw [given_cons_known]
        exact setAttachOption_known (given_eq_none hnot)
      · have hunknown : ∀ key : AttachKey, k ≠ key.text := fun key h => hknown ⟨key, h⟩
        rw [setAttachOption_unknown hunknown, given_cons_unknown hunknown]
        rfl

theorem given_perm {options' : List (Bytes × OptionValue)} (hkeys : (options.map Prod.fst).Nodup)
    (h : options.Perm options') : given options' = given options := by
  funext key
  unfold given
  refine congrArg (Option.map Prod.snd) ?_
  have hkeys' : (options'.map Prod.fst).Nodup := (h.map Prod.fst).nodup_iff.mp hkeys
  -- an option is found under its key, wherever it stands
  have hfind {l : List (Bytes × OptionValue)} (hl : (l.map Prod.fst).Nodup) (kv : Bytes × OptionValue) :
      (l.find? fun kv => kv.1 = key.text) = some kv ↔ kv ∈ l ∧ kv.1 = key.text := by
    constructor
    · intro hfound
      exact ⟨List.mem_of_find?_eq_some hfound, by simpa using List.find?_some hfound⟩
    · rintro ⟨hmem, hkey⟩
      obtain ⟨kv', hfound⟩ := Option.isSome_iff_exists.mp
        (List.find?_isSome.mpr ⟨kv, hmem, decide_eq_true hkey⟩ : (l.find? fun kv => kv.1 = key.text).isSome = true)
      have hkey' : kv'.1 = key.text := by simpa using List.find?_some hfound
      rw [hfound, List.inj_on_of_nodup_map hl (List.mem_of_find?_eq_some hfound) hmem (hkey'.trans hkey.symm)]
  refine Option.ext fun kv => ?_
  rw [hfind hkeys', hfind hkeys, h.mem_iff]

end Options

/-! ## The two calls -/

section Calls

variable {settings : SessionSettings} {path tableName : Bytes} {options : List (Bytes × OptionValue)}
  {parameters : ScanParameters}

/-- How a call of `firebird_scan` with these parameters is bound. -/
theorem firebirdScanBind_ok_iff {keepalive : Option Int64} {bound : BoundScan} :
    firebirdScanBind keepalive [path, tableName] parameters = .ok bound ↔
      ∃ info seeded mode, parseConnection path = .ok info ∧ seededNoneEncoding info = .ok seeded ∧
        ReadableCharset parameters.overrides ∧
        parameters.noneEncoding.elim (.ok seeded) parseNoneEncoding = .ok mode ∧ ReadableKeepalive keepalive ∧
        bound = {
          connInfo :=
            { parameters.overrides.apply info with
              dummyPacketIntervalSecs := keepalive.getD (parameters.overrides.apply info).dummyPacketIntervalSecs }
          tableName
          noneEncoding := mode
          nonePushdown := parameters.nonePushdown.getD info.nonePushdown
          numericWidenInt64 := parameters.numericWidenInt64.getD false } := by
  unfold ReadableCharset ReadableKeepalive
  unfold firebirdScanBind bindParameters
  simp only [bind_ok_iff, ← forM_ok_iff]
  constructor
  · rintro ⟨info, hinfo, seeded, hseeded, ⟨⟩, hcharset, mode, hmode, ⟨⟩, hkeepalive, hbound⟩
    exact ⟨info, seeded, mode, hinfo, hseeded, hcharset, hmode, hkeepalive, (Except.ok.inj hbound).symm⟩
  · rintro ⟨info, seeded, mode, hinfo, hseeded, hcharset, hmode, hkeepalive, rfl⟩
    exact ⟨info, hinfo, seeded, hseeded, (), hcharset, mode, hmode, (), hkeepalive, rfl⟩

/-- What the path and the options make of the connection. -/
theorem buildConnectionInfo_ok_iff (hkeys : (options.map Prod.fst).Nodup) {built : AttachedConnection} :
    buildConnectionInfo path options = .ok built ↔
      ∃ info seeded parameters mode, parseConnection path = .ok info ∧ seededNoneEncoding info = .ok seeded ∧
        scanParameters (given options) = some parameters ∧
        parameters.noneEncoding.elim (.ok seeded) parseNoneEncoding = .ok mode ∧
        built = {
          conn := parameters.overrides.apply info
          noneEncoding := mode
          nonePushdown := parameters.nonePushdown.getD info.nonePushdown
          numericWidenInt64 := parameters.numericWidenInt64.getD false } := by
  have hmode (parameters : ScanParameters) (seeded mode : NoneEncoding) :
      (parameters.noneEncoding.elim (some seeded) fun s => (parseNoneEncoding s).toOption) = some mode ↔
        parameters.noneEncoding.elim (.ok seeded) parseNoneEncoding = .ok mode := by
    cases parameters.noneEncoding with
    | none => exact ⟨fun h => congrArg _ (Option.some.inj h), fun h => congrArg _ (Except.ok.inj h)⟩
    | some s => exact toOption_eq_some_iff
  have hloop (st : AttachedConnection) : options.foldlM setAttachOption st = .ok built ↔
      ∃ parameters, scanParameters (given options) = some parameters ∧ st.apply parameters = some built := by
    rw [← toOption_eq_some_iff, foldlM_setAttachOption hkeys, Option.bind_eq_some_iff]
  unfold buildConnectionInfo
  simp only [bind_ok_iff, mapError_ok_iff, hloop, AttachedConnection.apply, Option.map_eq_some_iff, hmode]
  constructor
  · rintro ⟨info, hinfo, seeded, hseeded, parameters, hparameters, mode, hmode, rfl⟩
    exact ⟨info, seeded, parameters, mode, hinfo, hseeded, hparameters, hmode, rfl⟩
  · rintro ⟨info, seeded, parameters, mode, hinfo, hseeded, hparameters, hmode, rfl⟩
    exact ⟨info, hinfo, seeded, hseeded, parameters, hparameters, mode, hmode, rfl⟩

/-- How `ATTACH` makes a catalog. -/
theorem firebirdAttach_ok_iff {catalog : FirebirdCatalog} :
    firebirdAttach settings path options = .ok catalog ↔
      ∃ built config, buildConnectionInfo path options = .ok built ∧
        ReadableKeepalive settings.dummyPacketInterval ∧ buildPoolConfig settings = .ok config ∧
        catalog = {
          connInfo := { built.conn with dummyPacketIntervalSecs := settings.dummyPacketInterval.getD 0 }
          noneEncoding := built.noneEncoding
          nonePushdown := built.nonePushdown
          numericWidenInt64 := built.numericWidenInt64
          poolConfig := config } := by
  -- without a setting the interval is zero, which passes the check
  have hkeepalive : checkKeepalive (settings.dummyPacketInterval.getD 0) = .ok () ↔
      ReadableKeepalive settings.dummyPacketInterval := by
    unfold ReadableKeepalive
    rw [← forM_ok_iff]
    cases settings.dummyPacketInterval with
    | none => exact iff_of_true rfl rfl
    | some secs => exact Iff.rfl
  unfold firebirdAttach
  simp only [bind_ok_iff, mapError_ok_iff]
  constructor
  · rintro ⟨built, hbuilt, ⟨⟩, hsecs, config, hconfig, hcatalog⟩
    exact ⟨built, config, hbuilt, hkeepalive.mp hsecs, hconfig, (Except.ok.inj hcatalog).symm⟩
  · rintro ⟨built, config, hbuilt, hsecs, hconfig, rfl⟩
    exact ⟨built, hbuilt, (), hkeepalive.mpr hsecs, config, hconfig, rfl⟩

/-- A catalog, as a call of `firebird_scan` is bound. -/
def FirebirdCatalog.bound (catalog : FirebirdCatalog) (tableName : Bytes) : BoundScan where
  connInfo := catalog.connInfo
  tableName
  noneEncoding := catalog.noneEncoding
  nonePushdown := catalog.nonePushdown
  numericWidenInt64 := catalog.numericWidenInt64

/-- A charset that a call does not take, no connection takes. -/
theorem validateClientCharset_of_not_readable {charset : Bytes} (h : ¬(checkCharset charset).isOk = true) :
    ∃ e, validateClientCharset charset = .error e := by
  unfold checkCharset at h
  unfold validateClientCharset
  split_ifs at h with hin
  · exact absurd rfl h
  · refine ⟨_, if_neg fun hmem => hin ?_⟩
    exact List.contains_iff_mem.mpr hmem

/-- **`ATTACH` and `firebird_scan` agree.** The order of the options does not matter. A catalog is made from options
    whose values convert, and a call of `firebird_scan` with the options as its parameters has the connection and the
    modes of the catalog, or is refused for a charset that the catalog cannot connect with either. And where such a
    call is bound, there is a catalog, if the settings of the pool pass. -/
theorem attach_agrees (settings : SessionSettings) (path tableName : Bytes) {options : List (Bytes × OptionValue)}
    (hkeys : (options.map Prod.fst).Nodup) :
    (∀ options', options.Perm options' →
      (firebirdAttach settings path options').toOption = (firebirdAttach settings path options).toOption) ∧
    (∀ catalog, firebirdAttach settings path options = .ok catalog →
      ∃ parameters, scanParameters (given options) = some parameters ∧
        (∀ bound, firebirdScanBind settings.dummyPacketInterval [path, tableName] parameters = .ok bound ↔
          ReadableCharset parameters.overrides ∧ bound = catalog.bound tableName) ∧
        (ReadableCharset parameters.overrides ∨ ∃ e, validateClientCharset catalog.connInfo.charset = .error e)) ∧
    ∀ parameters bound config, scanParameters (given options) = some parameters →
      buildPoolConfig settings = .ok config →
      firebirdScanBind settings.dummyPacketInterval [path, tableName] parameters = .ok bound →
      ∃ catalog, firebirdAttach settings path options = .ok catalog ∧ catalog.poolConfig = config ∧
        bound = catalog.bound tableName := by
  refine ⟨?_, ?_, ?_⟩
  · intro options' hperm
    have hkeys' : (options'.map Prod.fst).Nodup := (hperm.map Prod.fst).nodup_iff.mp hkeys
    have hbuild (built : AttachedConnection) :
        buildConnectionInfo path options' = .ok built ↔ buildConnectionInfo path options = .ok built := by
      rw [buildConnectionInfo_ok_iff hkeys', buildConnectionInfo_ok_iff hkeys, given_perm hkeys hperm]
    refine Option.ext fun catalog => ?_
    rw [toOption_eq_some_iff, toOption_eq_some_iff, firebirdAttach_ok_iff, firebirdAttach_ok_iff]
    simp only [hbuild]
  · intro catalog hcatalog
    obtain ⟨built, config, hbuilt, hsecs, -, rfl⟩ := firebirdAttach_ok_iff.mp hcatalog
    obtain ⟨info, seeded, parameters, mode, hinfo, hseeded, hparameters, hmode, rfl⟩ :=
      (buildConnectionInfo_ok_iff hkeys).mp hbuilt
    -- a connection string has no keepalive
    have hzero := parse_interval (parseConnection_ok_iff.mp hinfo)
    have happly : (parameters.overrides.apply info).dummyPacketIntervalSecs = 0 := hzero
    refine ⟨parameters, hparameters, fun bound => ?_, ?_⟩
    · rw [firebirdScanBind_ok_iff]
      constructor
      · rintro ⟨info', seeded', mode', hinfo', hseeded', hcharset, hmode', -, rfl⟩
        obtain rfl := Except.ok.inj (hinfo.symm.trans hinfo')
        obtain rfl := Except.ok.inj (hseeded.symm.trans hseeded')
        obtain rfl := Except.ok.inj (hmode.symm.trans hmode')
        rw [happly]
        exact ⟨hcharset, rfl⟩
      · rintro ⟨hcharset, rfl⟩
        refine ⟨info, seeded, mode, hinfo, hseeded, hcharset, hmode, hsecs, ?_⟩
        rw [happly]
        rfl
    · by_cases hcharset : ReadableCharset parameters.overrides
      · exact .inl hcharset
      · right
        unfold ReadableCharset at hcharset
        push Not at hcharset
        obtain ⟨charset, hgiven, hbad⟩ := hcharset
        have hinfo : (parameters.overrides.apply info).charset = charset := by
          unfold ConnectionOverrides.apply
          rw [show parameters.overrides.charset = some charset from hgiven]
          rfl
        show ∃ e, validateClientCharset (parameters.overrides.apply info).charset = .error e
        rw [hinfo]
        exact validateClientCharset_of_not_readable hbad
  · intro parameters bound config hparameters hconfig hbound
    obtain ⟨info, seeded, mode, hinfo, hseeded, -, hmode, hsecs, rfl⟩ := firebirdScanBind_ok_iff.mp hbound
    have hzero := parse_interval (parseConnection_ok_iff.mp hinfo)
    have happly : (parameters.overrides.apply info).dummyPacketIntervalSecs = 0 := hzero
    have hbuilt := (@buildConnectionInfo_ok_iff path options hkeys _).mpr
      ⟨info, seeded, parameters, mode, hinfo, hseeded, hparameters, hmode, rfl⟩
    refine ⟨⟨_, mode, _, _, config⟩, firebirdAttach_ok_iff.mpr ⟨_, config, hbuilt, hsecs, hconfig, rfl⟩, rfl, ?_⟩
    rw [happly]
    rfl

end Calls

/-- `ATTACH 'app.fdb' AS fb (TYPE firebird, user 'APP', none_encoding 'latin1')`, its options in some order. -/
def appOptions : List (Bytes × OptionValue) :=
  [(utf8 "none_encoding", { text := utf8 "latin1" }), (utf8 "type", { text := utf8 "firebird" }),
   (utf8 "user", { text := utf8 "APP" })]

/-- The same as parameters. -/
def appParameters : ScanParameters where
  overrides := { user := some (utf8 "APP") }
  noneEncoding := some (utf8 "latin1")

def appBound : BoundScan where
  connInfo := { database := utf8 "app.fdb", user := utf8 "APP" }
  tableName := utf8 "T"
  noneEncoding := .iso8859_1
  nonePushdown := false
  numericWidenInt64 := false

theorem attach_agrees_app :
    ∃ catalog, firebirdAttach {} (utf8 "app.fdb") appOptions = .ok catalog ∧ catalog.poolConfig = {} ∧
      appBound = catalog.bound (utf8 "T") :=
  (attach_agrees {} (utf8 "app.fdb") (utf8 "T") (by decide : (appOptions.map Prod.fst).Nodup)).2.2
    appParameters appBound {} rfl rfl rfl

end FirebirdScan
