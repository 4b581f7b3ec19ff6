import FirebirdScan.Client.Attach

/-!
# `Scanner.ScanBind` — the connection of a scan (`FirebirdScanBind`)

The connection string is parsed, then every named parameter replaces what the string says, and last the keepalive of
the session replaces what the parameters say. `firebirdScanBind_connInfo_iff` says which connection a call has, and
when it has one.
-/

namespace FirebirdScan

open FirebirdConnectionInfo

/-! ## Named parameters -/

/-- The named parameters that say how to connect. One that is not given, or in v2.0 is `NULL`, changes nothing. -/
structure ConnectionOverrides where
  user : Option Bytes := none
  password : Option Bytes := none
  charset : Option Bytes := none
  role : Option Bytes := none
  dialect : Option Int32 := none

/-- The loop over the named parameters. The keys are distinct, so their order does not matter. -/
def ConnectionOverrides.apply (overrides : ConnectionOverrides) (info : FirebirdConnectionInfo) :
    FirebirdConnectionInfo :=
  { info with
    user := overrides.user.getD info.user
    password := overrides.password.getD info.password
    charset := overrides.charset.getD info.charset
    role := overrides.role.getD info.role
    dialect := overrides.dialect.getD info.dialect }

/-- Every parameter that is given says what the connection says without it. -/
structure ConnectionOverrides.Redundant (overrides : ConnectionOverrides) (info : FirebirdConnectionInfo) : Prop where
  user : ∀ user ∈ overrides.user, user = info.user
  password : ∀ password ∈ overrides.password, password = info.password
  charset : ∀ charset ∈ overrides.charset, charset = info.charset
  role : ∀ role ∈ overrides.role, role = info.role
  dialect : ∀ dialect ∈ overrides.dialect, dialect = info.dialect

theorem getD_eq_self_iff {α : Type} {given : Option α} {a : α} : given.getD a = a ↔ ∀ b ∈ given, b = a := by
  cases given with
  | none => exact iff_of_true rfl fun b hb => nomatch hb
  | some c =>
      constructor
      · rintro hc b hb
        exact (Option.some.inj hb).symm.trans hc
      · intro h
        exact h c rfl

/-- **Redundant parameters are those that change nothing.** -/
theorem ConnectionOverrides.apply_eq_self_iff {overrides : ConnectionOverrides} {info : FirebirdConnectionInfo} :
    overrides.apply info = info ↔ overrides.Redundant info := by
  constructor
  · intro h
    exact {
      user := getD_eq_self_iff.mp (congrArg FirebirdConnectionInfo.user h)
      password := getD_eq_self_iff.mp (congrArg FirebirdConnectionInfo.password h)
      charset := getD_eq_self_iff.mp (congrArg FirebirdConnectionInfo.charset h)
      role := getD_eq_self_iff.mp (congrArg FirebirdConnectionInfo.role h)
      dialect := getD_eq_self_iff.mp (congrArg FirebirdConnectionInfo.dialect h) }
  · rintro ⟨huser, hpassword, hcharset, hrole, hdialect⟩
    unfold ConnectionOverrides.apply
    rw [getD_eq_self_iff.mpr huser, getD_eq_self_iff.mpr hpassword, getD_eq_self_iff.mpr hcharset,
      getD_eq_self_iff.mpr hrole, getD_eq_self_iff.mpr hdialect]

/-! ## The bind -/

/-- What a bind throws: `BinderException`, `IOException`, `InvalidInputException`. -/
inductive ScanBindError where
  | binder (message : Bytes)
  | io (message : Bytes)
  | invalidInput (message : Bytes)
deriving DecidableEq

/-- `FirebirdConnectionInfo::Parse`, as a bind calls it. -/
def parseConnection (connStr : Bytes) : Except ScanBindError FirebirdConnectionInfo :=
  (parse connStr).mapError fun e => .invalidInput e.message

/-- `ParseNoneEncoding`. -/
def parseNoneEncoding (s : Bytes) : Except ScanBindError NoneEncoding :=
  let upper := toUpper (s.filter fun c => c ≠ 0x2D ∧ c ≠ 0x5F)
  if [utf8 "STRICT", utf8 "UTF8", utf8 "UTF8STRICT"].contains upper then .ok .strict
  else if [utf8 "WIN1252", utf8 "WINDOWS1252", utf8 "CP1252"].contains upper then .ok .win1252
  else if [utf8 "ISO88591", utf8 "LATIN1"].contains upper then .ok .iso8859_1
  else if [utf8 "BLOB", utf8 "OCTETS"].contains upper then .ok .blob
  else .error (.io (utf8 "firebird: unknown none_encoding='" ++ s ++ utf8 "'. Accepted: " ++
    utf8 "'win1252' (default), 'iso8859_1' (alias 'latin1'), 'strict', 'blob'."))

/-- The preference of the connection string, or `WIN1252`. -/
def seededNoneEncoding (info : FirebirdConnectionInfo) : Except ScanBindError NoneEncoding :=
  if info.noneEncoding = [] then .ok .win1252 else parseNoneEncoding info.noneEncoding

/-- The check of `charset`. Unlike `ValidateClientCharset`, it is made on a named parameter only. -/
def checkCharset (charset : Bytes) : Except ScanBindError Unit :=
  if [utf8 "UTF8", utf8 "UTF-8", utf8 "NONE", utf8 "OCTETS"].contains (toUpper charset) then .ok ()
  else .error (.binder (utf8 "firebird_scan: charset='" ++ charset ++ utf8 "' would deliver non-UTF-8 " ++
    utf8 "bytes to DuckDB. Use the default UTF8 — Firebird transliterates from " ++ charset ++
    utf8 "-stored data to UTF-8 wire automatically. (See README → 'Charset handling'.)"))

/-- `ValidateDummyPacketInterval`, as a bind calls it. -/
def checkKeepalive (secs : Int64) : Except ScanBindError Unit :=
  (validateDummyPacketInterval secs).mapError fun
    | .binder message => .binder message
    | .io message => .io message

/-- The named parameters of `firebird_scan`, those of the paging and of the partitions apart. -/
structure ScanParameters where
  overrides : ConnectionOverrides := {}
  noneEncoding : Option Bytes := none
  nonePushdown : Option Bool := none
  numericWidenInt64 : Option Bool := none

/-- What these parameters and the two arguments make of `FirebirdBindData`. -/
structure BoundScan where
  connInfo : FirebirdConnectionInfo
  tableName : Bytes
  noneEncoding : NoneEncoding
  nonePushdown : Bool
  numericWidenInt64 : Bool

/-- The part of the bind between the parse and the paging. `keepalive` is the setting `firebird_dummy_packet_interval`,
    unless that is `NULL`. -/
def bindParameters (keepalive : Option Int64) (info : FirebirdConnectionInfo) (tableName : Bytes)
    (parameters : ScanParameters) : Except ScanBindError BoundScan := do
  let seeded ← seededNoneEncoding info
  parameters.overrides.charset.forM checkCharset
  let noneEncoding ← parameters.noneEncoding.elim (.ok seeded) parseNoneEncoding
  keepalive.forM checkKeepalive
  let connected := parameters.overrides.apply info
  .ok {
    connInfo := { connected with dummyPacketIntervalSecs := keepalive.getD connected.dummyPacketIntervalSecs }
    tableName
    noneEncoding
    nonePushdown := parameters.nonePushdown.getD info.nonePushdown
    numericWidenInt64 := parameters.numericWidenInt64.getD false }

/-- `FirebirdScanBind`, up to the paging. -/
def firebirdScanBind (keepalive : Option Int64) (inputs : List Bytes) (parameters : ScanParameters) :
    Except ScanBindError BoundScan :=
  match inputs with
  | connStr :: tableName :: _ => do bindParameters keepalive (← parseConnection connStr) tableName parameters
  | _ => .error (.binder (utf8 "firebird_scan(connection_string, table_name) requires two positional arguments"))

/-! ## The keepalive of a connection string -/

/-- No option sets it. -/
theorem setOption_interval {info info' : FirebirdConnectionInfo} {key val : Bytes}
    (h : info.setOption key val = .ok info') : info'.dummyPacketIntervalSecs = info.dummyPacketIntervalSecs := by
  unfold setOption at h
  split_ifs at h with hcharset hrole hdialect huser hpassword hencoding hpushdown
  · cases h
    rfl
  · cases h
    rfl
  · cases h
    rfl
  · cases h
    rfl
  · cases h
    rfl
  · cases h
    rfl
  · rcases hbool : parseConnStringBool key val with e | b
    · rw [hbool] at h
      cases h
    · rw [hbool] at h
      cases h
      rfl
  · cases h
    rfl

/-- What every item leaves alone, the list does. -/
theorem foldlM_interval {set : FirebirdConnectionInfo → Bytes → Except InvalidInput FirebirdConnectionInfo}
    (hset : ∀ info item info', set info item = .ok info' →
      info'.dummyPacketIntervalSecs = info.dummyPacketIntervalSecs) {items : List Bytes}
    {info info' : FirebirdConnectionInfo} (h : items.foldlM set info = .ok info') :
    info'.dummyPacketIntervalSecs = info.dummyPacketIntervalSecs := by
  induction items generalizing info with
  | nil =>
      cases h
      rfl
  | cons item items ih =>
      rw [List.foldlM_cons] at h
      rcases hitem : set info item with e | next
      · rw [hitem] at h
        cases h
      · rw [hitem] at h
        exact (ih h).trans (hset info item next hitem)

theorem setUserinfo_interval (info : FirebirdConnectionInfo) (userinfo : Bytes) :
    (info.setUserinfo userinfo).dummyPacketIntervalSecs = info.dummyPacketIntervalSecs := by
  unfold setUserinfo
  split_ifs
  · rfl
  · split
    · rfl
    · rfl

/-- **A connection string has no keepalive.** -/
theorem parse_interval {connStr : Bytes} {info : FirebirdConnectionInfo} (h : parse connStr = .ok info) :
    info.dummyPacketIntervalSecs = 0 := by
  unfold parse at h
  split_ifs at h with hurl hitems
  · refine (foldlM_interval ?_ h).trans (setUserinfo_interval {} _)
    intro info item info' hitem
    unfold setQueryItem at hitem
    split at hitem
    · exact setOption_interval hitem
    · cases hitem
      rfl
  · refine foldlM_interval ?_ h
    intro info item info' hitem
    unfold setItem at hitem
    split at hitem
    · simp only at hitem
      split_ifs at hitem
      · cases hitem
        rfl
      · exact setOption_interval hitem
    · cases hitem
      rfl
  · cases h
    rfl

/-! ## The connection of a call -/

/-- The preference of a connection string for `CHARACTER SET NONE` can be read. -/
def ReadableNoneEncoding (info : FirebirdConnectionInfo) : Prop :=
  info.noneEncoding = [] ∨ (parseNoneEncoding info.noneEncoding).isOk = true

/-- The keepalive of the session passes the check, if there is one. -/
def ReadableKeepalive (keepalive : Option Int64) : Prop := ∀ secs ∈ keepalive, (checkKeepalive secs).isOk = true

/-- A charset that is named passes the check. -/
def ReadableCharset (overrides : ConnectionOverrides) : Prop :=
  ∀ charset ∈ overrides.charset, (checkCharset charset).isOk = true

instance (info : FirebirdConnectionInfo) : Decidable (ReadableNoneEncoding info) :=
  inferInstanceAs (Decidable (_ ∨ _))

theorem forM_ok_iff {α ε : Type} {given : Option α} {check : α → Except ε Unit} :
    given.forM check = .ok () ↔ ∀ a ∈ given, (check a).isOk = true := by
  cases given with
  | none => exact iff_of_true rfl fun a ha => nomatch ha
  | some a =>
      have hcheck : check a = .ok () ↔ (check a).isOk = true := by
        rcases check a with e | ⟨⟩
        · exact iff_of_false (fun h => nomatch h) Bool.false_ne_true
        · exact iff_of_true rfl rfl
      constructor
      · rintro h b hb
        rw [← Option.some.inj hb]
        exact hcheck.mp h
      · intro h
        exact hcheck.mpr (h a rfl)

theorem seededNoneEncoding_isOk (info : FirebirdConnectionInfo) :
    (seededNoneEncoding info).isOk = true ↔ ReadableNoneEncoding info := by
  unfold seededNoneEncoding ReadableNoneEncoding
  split_ifs with hempty
  · exact iff_of_true rfl (.inl hempty)
  · exact (or_iff_right hempty).symm

theorem parseConnection_ok_iff {connStr : Bytes} {info : FirebirdConnectionInfo} :
    parseConnection connStr = .ok info ↔ parse connStr = .ok info := by
  unfold parseConnection
  rcases parse connStr with e | parsed
  · exact iff_of_false (fun h => nomatch h) fun h => nomatch h
  · exact ⟨fun h => congrArg Except.ok (Except.ok.inj h), fun h => congrArg Except.ok (Except.ok.inj h)⟩

/-- The steps of a call that says how to connect and nothing else. -/
theorem firebirdScanBind_connInfo {keepalive : Option Int64} {connStr tableName : Bytes}
    {overrides : ConnectionOverrides} {info : FirebirdConnectionInfo} (hparse : parse connStr = .ok info) :
    (firebirdScanBind keepalive [connStr, tableName] { overrides }).map BoundScan.connInfo =
      (seededNoneEncoding info).bind fun _ => (overrides.charset.forM checkCharset).bind fun _ =>
        (keepalive.forM checkKeepalive).bind fun _ =>
          .ok { overrides.apply info with dummyPacketIntervalSecs := keepalive.getD 0 } := by
  show ((parseConnection connStr).bind fun info => bindParameters keepalive info tableName { overrides }).map _ = _
  rw [parseConnection_ok_iff.mpr hparse, ← parse_interval hparse]
  unfold bindParameters
  show ((seededNoneEncoding info).bind _).map _ = _
  rcases seededNoneEncoding info with e | seeded
  · rfl
  · show ((overrides.charset.forM checkCharset).bind _).map _ = _
    rcases overrides.charset.forM checkCharset with e | ⟨⟩
    · rfl
    · show ((keepalive.forM checkKeepalive).bind _).map _ = _
      rcases keepalive.forM checkKeepalive with e | ⟨⟩
      · rfl
      · rfl

/-- **The connection of a call** that says how to connect: the one of the string with what the call says, and the
    keepalive of the session. -/
theorem firebirdScanBind_connInfo_iff {keepalive : Option Int64} {connStr tableName : Bytes}
    {overrides : ConnectionOverrides} {info bound : FirebirdConnectionInfo} (hparse : parse connStr = .ok info) :
    (firebirdScanBind keepalive [connStr, tableName] { overrides }).map BoundScan.connInfo = .ok bound ↔
      ReadableNoneEncoding info ∧ ReadableCharset overrides ∧ ReadableKeepalive keepalive ∧
        { overrides.apply info with dummyPacketIntervalSecs := keepalive.getD 0 } = bound := by
  rw [firebirdScanBind_connInfo hparse, ← seededNoneEncoding_isOk]
  unfold ReadableKeepalive ReadableCharset
  rw [← forM_ok_iff, ← forM_ok_iff]
  rcases seededNoneEncoding info with e | seeded
  · exact iff_of_false (fun h => nomatch h) fun h => Bool.false_ne_true h.1
  · rcases overrides.charset.forM checkCharset with e | ⟨⟩
    · exact iff_of_false (fun h => nomatch h) fun h => nomatch h.2.1
    · rcases keepalive.forM checkKeepalive with e | ⟨⟩
      · exact iff_of_false (fun h => nomatch h) fun h => nomatch h.2.2.1
      · constructor
        · intro h
          exact ⟨rfl, rfl, rfl, Except.ok.inj h⟩
        · rintro ⟨-, -, -, hbound⟩
          exact congrArg Except.ok hbound

end FirebirdScan
