import FirebirdScan.Client.Metadata
import FirebirdScan.Lib.Delimited
import Mathlib.Data.List.DropRight

/-!
# `Client.ConnectionInfo` — connection strings (`FirebirdConnectionInfo::Parse`)

A connection string is a URL, a list of `key=value` items, or the path of a database. Keys that are not known
are ignored; the one value that is checked is that of `none_pushdown`.
-/

namespace FirebirdScan

open Delimited

/-- `FirebirdConnectionInfo`. -/
structure FirebirdConnectionInfo where
  database : Bytes := []
  user : Bytes := utf8 "SYSDBA"
  password : Bytes := utf8 "masterkey"
  role : Bytes := []
  charset : Bytes := utf8 "UTF8"
  dialect : Int32 := 3
  dummyPacketIntervalSecs : Int64 := 0
  noneEncoding : Bytes := []
  nonePushdown : Bool := false
deriving DecidableEq

/-! ## Numbers -/

/-- `static_cast<char>`. -/
def charOf (n : Int) : UInt8 := UInt8.ofNat (n % 256).toNat

/-- `isspace`, in the C locale. -/
def isSpace (c : UInt8) : Bool := c = 0x20 || (0x09 ≤ c && c ≤ 0x0D)

/-- A digit in the base. -/
def digitOf (base : Nat) (c : UInt8) : Option Nat :=
  let d : Option Nat :=
    if 0x30 ≤ c ∧ c ≤ 0x39 then some (c.toNat - 0x30)
    else if 0x41 ≤ c ∧ c ≤ 0x5A then some (c.toNat - 0x41 + 10)
    else if 0x61 ≤ c ∧ c ≤ 0x7A then some (c.toNat - 0x61 + 10)
    else none
  d.filter (· < base)

/-- The number in front of a text, digit by digit. -/
def readDigits (base : Nat) : Nat → Bytes → Nat
  | n, [] => n
  | n, c :: s =>
      match digitOf base c with
      | some d => readDigits base (n * base + d) s
      | none => n

/-- A 64-bit `long` holds its extremes instead of what is beyond them. -/
def clampLong (n : Int) : Int := max (-2 ^ 63) (min (2 ^ 63 - 1) n)

/-- `strtol`. The prefix `0x` of base 16 is left out: two characters are never a prefix and a digit. -/
def strtol (base : Nat) (s : Bytes) : Int :=
  match s.dropWhile isSpace with
  | 0x2D :: s => clampLong (-(readDigits base 0 s : Int))
  | 0x2B :: s => clampLong (readDigits base 0 s)
  | s => clampLong (readDigits base 0 s)

/-- `atoi`. -/
def atoi (s : Bytes) : Int32 := Int32.ofInt (strtol 10 s)

/-! ## Options -/

/-- `InvalidInputException`. -/
structure InvalidInput where
  message : Bytes
deriving DecidableEq

/-- `ParseConnStringBool`. -/
def parseConnStringBool (key val : Bytes) : Except InvalidInput Bool :=
  if toLower val = utf8 "true" ∨ toLower val = utf8 "1" then .ok true
  else if toLower val = utf8 "false" ∨ toLower val = utf8 "0" then .ok false
  else .error ⟨utf8 "connection-string option '" ++ key ++ utf8 "' expects true/false (or 1/0), got '" ++ val ++
    utf8 "'"⟩

namespace FirebirdConnectionInfo

/-- The options that both forms have. -/
def setOption (info : FirebirdConnectionInfo) (key val : Bytes) : Except InvalidInput FirebirdConnectionInfo :=
  if key = utf8 "charset" then .ok { info with charset := val }
  else if key = utf8 "role" then .ok { info with role := val }
  else if key = utf8 "dialect" then .ok { info with dialect := atoi val }
  else if key = utf8 "user" then .ok { info with user := val }
  else if key = utf8 "password" then .ok { info with password := val }
  else if key = utf8 "none_encoding" then .ok { info with noneEncoding := val }
  else if key = utf8 "none_pushdown" then
    (parseConnStringBool key val).map fun b => { info with nonePushdown := b }
  else .ok info

/-! ## The URL form -/

/-- `UrlDecode`. A `%` needs two characters behind it; that they are digits is not checked. -/
def urlDecode : Bytes → Bytes
  | [] => []
  | 0x25 :: h :: l :: s => charOf (strtol 16 [h, l]) :: urlDecode s
  | 0x2B :: s => 0x20 :: urlDecode s
  | c :: s => c :: urlDecode s

/-- `user[:password]`. -/
def setUserinfo (info : FirebirdConnectionInfo) (userinfo : Bytes) : FirebirdConnectionInfo :=
  if userinfo = [] then info
  else
    match splitFirst 0x3A userinfo with
    | some (user, password) => { info with user := urlDecode user, password := urlDecode password }
    | none => { info with user := urlDecode userinfo }

/-- `host[:port]` as libfbclient has it. A bracket keeps the host as it is. -/
def hostPort (host : Bytes) : Bytes :=
  match splitLast 0x3A host with
  | some (name, port) => if 0x5D ∈ host then host else name ++ [0x2F] ++ port
  | none => host

/-- The database of `host[:port]/path`. -/
def databaseOf (rest : Bytes) : Bytes :=
  let host := rest.takeWhile (· ≠ 0x2F)
  let path := rest.dropWhile (· ≠ 0x2F)
  if host ≠ [] then hostPort host ++ [0x3A] ++ path else path

/-- `[userinfo@]host[:port]/path`. -/
def parseLocation (rest : Bytes) : FirebirdConnectionInfo :=
  let split := (splitFirst 0x40 rest).getD ([], rest)
  { setUserinfo {} split.1 with database := databaseOf split.2 }

/-- An item of the query. -/
def setQueryItem (info : FirebirdConnectionInfo) (kv : Bytes) : Except InvalidInput FirebirdConnectionInfo :=
  match splitFirst 0x3D kv with
  | some (key, val) => info.setOption key (urlDecode val)
  | none => .ok info

/-- What stands behind `firebird://`. -/
def parseUrl (rest : Bytes) : Except InvalidInput FirebirdConnectionInfo :=
  let split := (splitFirst 0x3F rest).getD (rest, [])
  (lines 0x26 split.2).foldlM setQueryItem (parseLocation split.1)

/-! ## The key=value form -/

def isBlank (c : UInt8) : Bool := c = 0x20 || c = 0x09

/-- An item. The key is trimmed at its front, the value at its back. -/
def setItem (info : FirebirdConnectionInfo) (kv : Bytes) : Except InvalidInput FirebirdConnectionInfo :=
  match splitFirst 0x3D kv with
  | some (key, val) =>
      let key := key.dropWhile isBlank
      let val := val.rdropWhile isBlank
      if key = utf8 "database" then .ok { info with database := val } else info.setOption key val
  | none => .ok info

def parseItems (connStr : Bytes) : Except InvalidInput FirebirdConnectionInfo :=
  (lines 0x3B connStr).foldlM setItem {}

/-- `firebird://` -/
def scheme : Bytes := utf8 "firebird://"

/-- `FirebirdConnectionInfo::Parse`. -/
def parse (connStr : Bytes) : Except InvalidInput FirebirdConnectionInfo :=
  if scheme <+: connStr then parseUrl (connStr.drop scheme.length)
  else if 0x3D ∈ connStr ∧ 0x3B ∈ connStr then parseItems connStr
  -- a bare path
  else .ok { database := connStr }

/-! ## Known options -/

/-- The options that both forms have. -/
inductive ConnOption where
  | charset | role | dialect | user | password | noneEncoding | nonePushdown
deriving DecidableEq

def ConnOption.key : ConnOption → Bytes
  | .charset => utf8 "charset"
  | .role => utf8 "role"
  | .dialect => utf8 "dialect"
  | .user => utf8 "user"
  | .password => utf8 "password"
  | .noneEncoding => utf8 "none_encoding"
  | .nonePushdown => utf8 "none_pushdown"

def isTrue (val : Bytes) : Bool := toLower val = utf8 "true" || toLower val = utf8 "1"

/-- A value `ParseConnStringBool` takes. -/
def AcceptedBool (val : Bytes) : Prop := isTrue val = true ∨ toLower val = utf8 "false" ∨ toLower val = utf8 "0"

instance (val : Bytes) : Decidable (AcceptedBool val) := inferInstanceAs (Decidable (_ ∨ _ ∨ _))

/-- Options with the values they are given. -/
abbrev Options := List (ConnOption × Bytes)

/-- The value an option is given last. -/
def lastValue (o : ConnOption) : Options → Option Bytes
  | [] => none
  | (o', val) :: options => (lastValue o options).or (if o' = o then some val else none)

/-- The record with the values of the options. -/
def withOptions (info : FirebirdConnectionInfo) (options : Options) : FirebirdConnectionInfo :=
  { info with
    charset := (lastValue .charset options).getD info.charset
    role := (lastValue .role options).getD info.role
    dialect := (lastValue .dialect options).elim info.dialect atoi
    user := (lastValue .user options).getD info.user
    password := (lastValue .password options).getD info.password
    noneEncoding := (lastValue .noneEncoding options).getD info.noneEncoding
    nonePushdown := (lastValue .nonePushdown options).elim info.nonePushdown isTrue }

/-- An option is set under its own key and leaves the other fields alone. -/
theorem setOption_key (info : FirebirdConnectionInfo) {o : ConnOption} {val : Bytes}
    (h : o = .nonePushdown → AcceptedBool val) :
    info.setOption o.key val = .ok (info.withOptions [(o, val)]) := by
  cases o with
  | nonePushdown =>
      have hparse : parseConnStringBool (utf8 "none_pushdown") val = .ok (isTrue val) := by
        unfold parseConnStringBool isTrue
        have haccepted := h rfl
        unfold AcceptedBool isTrue at haccepted
        by_cases htrue : toLower val = utf8 "true" ∨ toLower val = utf8 "1"
        · rw [if_pos htrue]
          simpa using htrue
        · rw [if_neg htrue, if_pos (by simpa [htrue] using haccepted)]
          simpa using htrue
      show (parseConnStringBool (utf8 "none_pushdown") val).map _ = _
      rw [hparse]
      rfl
  | _ => rfl

/-- Any other key is ignored. -/
theorem setOption_unknown (info : FirebirdConnectionInfo) {key : Bytes} (val : Bytes)
    (h : ∀ o : ConnOption, key ≠ o.key) : info.setOption key val = .ok info := by
  have hkeys : ∀ s ∈ [utf8 "charset", utf8 "role", utf8 "dialect", utf8 "user", utf8 "password",
      utf8 "none_encoding", utf8 "none_pushdown"], key ≠ s := by
    simp only [List.forall_mem_cons]
    exact ⟨h .charset, h .role, h .dialect, h .user, h .password, h .noneEncoding, h .nonePushdown, nofun⟩
  unfold setOption
  simp only [List.forall_mem_cons] at hkeys
  rw [if_neg hkeys.1, if_neg hkeys.2.1, if_neg hkeys.2.2.1, if_neg hkeys.2.2.2.1, if_neg hkeys.2.2.2.2.1,
    if_neg hkeys.2.2.2.2.2.1, if_neg hkeys.2.2.2.2.2.2.1]

theorem withOptions_cons (info : FirebirdConnectionInfo) (o : ConnOption) (val : Bytes) (options : Options) :
    info.withOptions ((o, val) :: options) = (info.withOptions [(o, val)]).withOptions options := by
  have hget : ∀ (o' : ConnOption) (default : Bytes),
      (lastValue o' ((o, val) :: options)).getD default =
        (lastValue o' options).getD ((lastValue o' [(o, val)]).getD default) := by
    intro o' default
    simp only [lastValue, Option.none_or]
    cases lastValue o' options <;> rfl
  have helim : ∀ {β : Type} (o' : ConnOption) (default : β) (f : Bytes → β),
      (lastValue o' ((o, val) :: options)).elim default f =
        (lastValue o' options).elim ((lastValue o' [(o, val)]).elim default f) f := by
    intro β o' default f
    simp only [lastValue, Option.none_or]
    cases lastValue o' options <;> rfl
  unfold withOptions
  simp only [hget, helim]

/-- What both parsers do with their items: those that set options make the record with the options. -/
theorem foldlM_options {set : FirebirdConnectionInfo → Bytes → Except InvalidInput FirebirdConnectionInfo}
    {item : ConnOption × Bytes → Bytes} {options : Options}
    (h : ∀ p ∈ options, ∀ info, set info (item p) = .ok (withOptions info [p])) (info : FirebirdConnectionInfo) :
    (options.map item).foldlM set info = .ok (info.withOptions options) := by
  induction options generalizing info with
  | nil => rfl
  | cons p options ih =>
      rw [List.map_cons, List.foldlM_cons, h p List.mem_cons_self]
      show (options.map item).foldlM set (info.withOptions [p]) = _
      rw [ih fun p' hp' => h p' (List.mem_cons_of_mem _ hp'), ← withOptions_cons]

end FirebirdConnectionInfo

end FirebirdScan
