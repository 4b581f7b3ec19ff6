import FirebirdScan.Client.ConnectionInfo

/-!
# `Client.ConnectionUrl` — `firebird://[user:password@]host[:port]/path[?option=value&…]`

`Url` is the URL by its parts, each of which can only hold what may stand in its place, and `Url.text` writes it
down: the userinfo and the values are percent-encoded. `Parse` cuts the text by one search after the other.

`url_round_trip_iff` says when it gets the parts back. The search for `@` looks through the path as well, and a
port is left with its colon behind a host in brackets.
-/

namespace FirebirdScan

open Delimited FirebirdConnectionInfo

/-! ## Percent-encoding -/

def isUnreserved (c : UInt8) : Bool :=
  (0x30 ≤ c && c ≤ 0x39) || (0x41 ≤ c && c ≤ 0x5A) || (0x61 ≤ c && c ≤ 0x7A) ||
    c = 0x2D || c = 0x2E || c = 0x5F || c = 0x7E

def hexDigit (n : Nat) : UInt8 := if n < 10 then UInt8.ofNat (0x30 + n) else UInt8.ofNat (0x41 + (n - 10))

def percentEncodeByte (c : UInt8) : Bytes :=
  if isUnreserved c then [c] else [0x25, hexDigit (c.toNat / 16), hexDigit (c.toNat % 16)]

def percentEncode (s : Bytes) : Bytes := s.flatMap percentEncodeByte

theorem charOf_strtol_hexDigits (c : UInt8) :
    charOf (strtol 16 [hexDigit (c.toNat / 16), hexDigit (c.toNat % 16)]) = c := by
  revert c
  exact Utf8.every_byte (by decide +kernel)

theorem hexDigit_unreserved {n : Nat} (h : n < 16) : isUnreserved (hexDigit n) = true := by
  revert n
  decide

/-- What stands for a byte is unreserved, or a percent sign. -/
theorem mem_percentEncode {s : Bytes} {c : UInt8} (h : c ∈ percentEncode s) : isUnreserved c = true ∨ c = 0x25 := by
  obtain ⟨b, -, hc⟩ := List.mem_flatMap.mp h
  have hlt := b.toNat_lt
  unfold percentEncodeByte at hc
  split_ifs at hc with hb
  · rw [List.mem_singleton.mp hc]
    exact .inl hb
  · simp only [List.mem_cons, List.not_mem_nil, or_false] at hc
    rcases hc with rfl | rfl | rfl
    · exact .inr rfl
    · exact .inl (hexDigit_unreserved (by omega))
    · exact .inl (hexDigit_unreserved (by omega))

/-- So no delimiter occurs in it. -/
theorem not_mem_percentEncode {c : UInt8} (h : isUnreserved c = false ∧ c ≠ 0x25) (s : Bytes) :
    c ∉ percentEncode s := by
  intro hmem
  rcases mem_percentEncode hmem with hc | hc
  · rw [h.1] at hc
    cases hc
  · exact h.2 hc

theorem urlDecode_unreserved {c : UInt8} (hc : isUnreserved c = true) (s : Bytes) :
    urlDecode (c :: s) = c :: urlDecode s := by
  have hne : c ≠ 0x25 ∧ c ≠ 0x2B := by
    constructor
    · rintro rfl
      cases hc
    · rintro rfl
      cases hc
  rw [urlDecode]
  · exact fun h l s' heq => absurd heq hne.1
  · exact fun heq => absurd heq hne.2

/-- Decoding undoes encoding. -/
theorem urlDecode_percentEncode (s : Bytes) : urlDecode (percentEncode s) = s := by
  induction s with
  | nil => rfl
  | cons c s ih =>
      show urlDecode (percentEncodeByte c ++ percentEncode s) = c :: s
      unfold percentEncodeByte
      by_cases h : isUnreserved c = true
      · rw [if_pos h, List.singleton_append, urlDecode_unreserved h, ih]
      · rw [if_neg h]
        show charOf _ :: urlDecode (percentEncode s) = c :: s
        rw [charOf_strtol_hexDigits, ih]

/-! ## URLs -/

/-- A host: none, a name or an IPv4 address, or an IPv6 address in brackets. -/
inductive UrlHost where
  | empty
  | name (s : Bytes) (nonempty : s ≠ []) (plain : ∀ c ∈ utf8 "/?@:[]", c ∉ s)
  | bracketed (address : Bytes) (plain : ∀ c ∈ utf8 "/?@[]", c ∉ address)

def UrlHost.text : UrlHost → Bytes
  | .empty => []
  | .name s _ _ => s
  | .bracketed address _ => [0x5B] ++ address ++ [0x5D]

/-- A URL by its parts. -/
structure Url where
  userinfo : Option (Bytes × Bytes)
  host : UrlHost
  port : Option Bytes
  path : Bytes
  options : Options
  port_digits : ∀ digits, port = some digits → ∀ c ∈ digits, 0x30 ≤ c ∧ c ≤ 0x39
  path_absolute : path.head? = some 0x2F
  path_no_query : 0x3F ∉ path
  accepted : ∀ p ∈ options, p.1 = .nonePushdown → AcceptedBool p.2

namespace Url

def hostport (u : Url) : Bytes := u.host.text ++ u.port.elim [] fun digits => [0x3A] ++ digits

def userinfoText (u : Url) : Bytes :=
  u.userinfo.elim [] fun p => percentEncode p.1 ++ [0x3A] ++ percentEncode p.2 ++ [0x40]

/-- What stands between the scheme and the query. -/
def location (u : Url) : Bytes := u.userinfoText ++ u.hostport ++ u.path

/-- An option in the query. -/
def item (p : ConnOption × Bytes) : Bytes := p.1.key ++ [0x3D] ++ percentEncode p.2

def query (u : Url) : Bytes := if u.options = [] then [] else [0x3F] ++ join 0x26 (u.options.map item)

def text (u : Url) : Bytes := scheme ++ u.location ++ u.query

/-- The database, as libfbclient has it. -/
def database (u : Url) : Bytes :=
  match u.host with
  | .empty => u.path
  | host => host.text ++ (u.port.elim [] fun digits => [0x2F] ++ digits) ++ [0x3A] ++ u.path

/-- The record that the parts make. -/
def info (u : Url) : FirebirdConnectionInfo :=
  match u.userinfo with
  | some (user, password) => withOptions { database := u.database, user := user, password := password } u.options
  | none => withOptions { database := u.database } u.options

/-! ## What the searches find -/

variable {u : Url}

theorem not_mem_userinfoText {c : UInt8} (hc : isUnreserved c = false ∧ c ≠ 0x25) (hcolon : c ≠ 0x3A)
    (hat : c ≠ 0x40) (u : Url) : c ∉ u.userinfoText := by
  unfold userinfoText
  rcases u.userinfo with _ | ⟨user, password⟩
  · exact List.not_mem_nil
  · have huser := not_mem_percentEncode hc user
    have hpassword := not_mem_percentEncode hc password
    simp [huser, hpassword, hcolon, hat]

theorem not_mem_hostText (host : UrlHost) {c : UInt8} (hc : c ∈ utf8 "/?@") : c ∉ host.text := by
  have hname : ∀ c ∈ utf8 "/?@", c ∈ utf8 "/?@:[]" := by decide +kernel
  have haddress : ∀ c ∈ utf8 "/?@", c ∈ utf8 "/?@[]" := by decide +kernel
  have hbracket : ∀ c ∈ utf8 "/?@", c ≠ 0x5B ∧ c ≠ 0x5D := by decide +kernel
  cases host with
  | empty => exact List.not_mem_nil
  | name s _ plain => exact plain c (hname c hc)
  | bracketed address plain =>
      have hmem := plain c (haddress c hc)
      simp [UrlHost.text, hmem, hbracket c hc]

theorem not_mem_digits {c : UInt8} (hc : c ∈ utf8 "/?@:]") (u : Url) {digits : Bytes} (h : u.port = some digits) :
    c ∉ digits := by
  have hnot : ∀ c ∈ utf8 "/?@:]", ¬(0x30 ≤ c ∧ c ≤ 0x39) := by decide +kernel
  intro hmem
  exact hnot c hc (u.port_digits digits h c hmem)

theorem not_mem_hostport (u : Url) {c : UInt8} (hc : c ∈ utf8 "/?@") : c ∉ u.hostport := by
  have hcolon : ∀ c ∈ utf8 "/?@", c ≠ 0x3A ∧ c ∈ utf8 "/?@:]" := by decide +kernel
  have hhost := not_mem_hostText u.host hc
  unfold hostport
  cases hport : u.port with
  | none => simpa using hhost
  | some digits =>
      have hdigits := not_mem_digits (hcolon c hc).2 u hport
      simp [hhost, (hcolon c hc).1, hdigits]

/-- The query starts at the first question mark. -/
theorem not_mem_location (u : Url) : 0x3F ∉ u.location := by
  have huserinfo := not_mem_userinfoText (c := 0x3F) (by decide) (by decide) (by decide) u
  have hhostport := not_mem_hostport u (c := 0x3F) (by decide)
  simp [location, huserinfo, hhostport, u.path_no_query]

theorem splitFirst_query (u : Url) :
    (splitFirst 0x3F (u.location ++ u.query)).getD (u.location ++ u.query, []) =
      (u.location, join 0x26 (u.options.map item)) := by
  unfold query
  by_cases h : u.options = []
  · rw [if_pos h, List.append_nil, splitFirst_eq_none.mpr u.not_mem_location, h]
    rfl
  · rw [if_neg h, List.singleton_append, splitFirst_append u.not_mem_location]
    rfl

theorem setQueryItem_item {p : ConnOption × Bytes} (h : p.1 = .nonePushdown → AcceptedBool p.2)
    (info : FirebirdConnectionInfo) : setQueryItem info (item p) = .ok (withOptions info [p]) := by
  have hkey : ∀ o : ConnOption, 0x3D ∉ o.key := fun o => by cases o <;> decide
  unfold setQueryItem item
  rw [List.append_assoc, List.singleton_append, splitFirst_append (hkey p.1)]
  show info.setOption p.1.key (urlDecode (percentEncode p.2)) = _
  rw [urlDecode_percentEncode, setOption_key info h]

theorem item_line (p : ConnOption × Bytes) : 0x26 ∉ item p ∧ item p ≠ [] := by
  have hkey : ∀ o : ConnOption, 0x26 ∉ o.key := fun o => by cases o <;> decide
  have hvalue := not_mem_percentEncode (c := 0x26) (by decide) p.2
  constructor
  · simp [item, hkey, hvalue]
  · simp [item]

/-- The options are read back, whatever became of the location. -/
theorem parse_text (u : Url) : parse u.text = .ok (withOptions (parseLocation u.location) u.options) := by
  have hscheme : scheme <+: u.text := by
    rw [text, List.append_assoc]
    exact List.prefix_append _ _
  have hlines : lines 0x26 (join 0x26 (u.options.map item)) = u.options.map item := by
    apply lines_join
    intro l hl
    obtain ⟨p, -, rfl⟩ := List.mem_map.mp hl
    exact item_line p
  rw [parse, if_pos hscheme, text, List.append_assoc, List.drop_left, parseUrl, splitFirst_query, hlines]
  exact foldlM_options (fun p hp info => setQueryItem_item (u.accepted p hp) info) _

/-! ## The location -/

theorem path_eq (u : Url) : ∃ rest, u.path = 0x2F :: rest := by
  cases hpath : u.path with
  | nil =>
      have h := u.path_absolute
      rw [hpath] at h
      cases h
  | cons c rest =>
      have h := u.path_absolute
      rw [hpath] at h
      exact ⟨rest, by rw [Option.some.inj h]⟩

theorem takeWhile_host {host : Bytes} (hhost : 0x2F ∉ host) (u : Url) :
    (host ++ u.path).takeWhile (· ≠ 0x2F) = host ∧ (host ++ u.path).dropWhile (· ≠ 0x2F) = u.path := by
  obtain ⟨rest, hpath⟩ := u.path_eq
  have hpos : ∀ c ∈ host, decide (c ≠ 0x2F) = true := by
    intro c hc
    refine decide_eq_true ?_
    rintro rfl
    exact hhost hc
  rw [List.takeWhile_append_of_pos hpos, List.dropWhile_append_of_pos hpos, hpath]
  simp

theorem databaseOf_host {host : Bytes} (hhost : 0x2F ∉ host) (hne : host ≠ []) (u : Url) :
    databaseOf (host ++ u.path) = hostPort host ++ [0x3A] ++ u.path := by
  obtain ⟨htake, hdrop⟩ := takeWhile_host hhost u
  unfold databaseOf
  rw [htake, hdrop]
  exact if_pos hne

theorem databaseOf_local (u : Url) : databaseOf u.path = u.path := by
  have hnil : (0x2F : UInt8) ∉ ([] : Bytes) := List.not_mem_nil
  obtain ⟨htake, hdrop⟩ := takeWhile_host hnil u
  rw [List.nil_append] at htake hdrop
  unfold databaseOf
  rw [htake, hdrop]
  exact if_neg (not_not.mpr rfl)

theorem hostPort_length (host : Bytes) : (hostPort host).length = host.length := by
  unfold hostPort
  cases h : splitLast 0x3A host with
  | none => rfl
  | some p =>
      obtain ⟨-, hhost⟩ := splitLast_eq_some.mp h
      dsimp only
      split_ifs
      · rfl
      · rw [hhost]
        simp

/-- A host without a bracket and its port. -/
theorem hostPort_port {host digits : Bytes} (hhost : 0x5D ∉ host) (hcolon : 0x3A ∉ digits)
    (hbracket : 0x5D ∉ digits) : hostPort (host ++ [0x3A] ++ digits) = host ++ [0x2F] ++ digits := by
  have hmem : 0x5D ∉ host ++ [0x3A] ++ digits := by simp [hhost, hbracket]
  unfold hostPort
  rw [List.append_assoc, List.singleton_append, splitLast_append host hcolon]
  dsimp only
  rw [← List.singleton_append, ← List.append_assoc, if_neg hmem]

/-- A host with a bracket is kept. -/
theorem hostPort_bracket {host : Bytes} (hhost : 0x5D ∈ host) : hostPort host = host := by
  unfold hostPort
  cases splitLast 0x3A host with
  | none => rfl
  | some p => exact if_pos hhost

theorem hostPort_plain {host : Bytes} (hhost : 0x3A ∉ host) : hostPort host = host := by
  unfold hostPort
  rw [splitLast_eq_none.mpr hhost]

theorem hostport_none (h : u.port = none) : u.hostport = u.host.text := by
  rw [hostport, h, Option.elim_none, List.append_nil]

theorem hostport_some {digits : Bytes} (h : u.port = some digits) :
    u.hostport = u.host.text ++ [0x3A] ++ digits := by
  rw [hostport, h, Option.elim_some, List.append_assoc]

theorem database_host (h : u.host ≠ .empty) :
    u.database = u.host.text ++ (u.port.elim [] fun digits => [0x2F] ++ digits) ++ [0x3A] ++ u.path := by
  unfold database
  cases hhost : u.host with
  | empty => exact absurd hhost h
  | _ => rfl

theorem path_length_le (u : Url) : u.path.length ≤ u.database.length := by
  by_cases h : u.host = .empty
  · unfold database
    rw [h]
  · rw [database_host h, List.length_append]
    exact Nat.le_add_left _ _

/-- Without a port, the database is that of the URL. -/
theorem databaseOf_no_port (h : u.port = none) : databaseOf (u.hostport ++ u.path) = u.database := by
  have hslash := u.not_mem_hostport (c := 0x2F) (by decide)
  rw [hostport_none h] at hslash ⊢
  cases hhost : u.host with
  | empty =>
      rw [database, hhost]
      exact u.databaseOf_local
  | name s nonempty plain =>
      rw [hhost] at hslash
      rw [database_host (by rw [hhost]; intro h; cases h), h, hhost, Option.elim_none, List.append_nil,
        databaseOf_host hslash nonempty]
      show hostPort s ++ [0x3A] ++ u.path = s ++ [0x3A] ++ u.path
      rw [hostPort_plain (plain 0x3A (by decide))]
  | bracketed address plain =>
      have hbracket : 0x5D ∈ (UrlHost.bracketed address plain).text := by simp [UrlHost.text]
      rw [hhost] at hslash
      rw [database_host (by rw [hhost]; intro h; cases h), h, hhost, Option.elim_none, List.append_nil,
        databaseOf_host hslash (List.ne_nil_of_mem hbracket), hostPort_bracket hbracket]

/-- With one, it is that of the URL if the host is a name: a port behind a bracket keeps its colon, and one
    without a host makes a host. -/
theorem databaseOf_port_iff {digits : Bytes} (h : u.port = some digits) :
    databaseOf (u.hostport ++ u.path) = u.database ↔ ∃ s h h', u.host = .name s h h' := by
  have hcolon := not_mem_digits (c := 0x3A) (by decide) u h
  have hclosing := not_mem_digits (c := 0x5D) (by decide) u h
  have hslash := u.not_mem_hostport (c := 0x2F) (by decide)
  have hne : u.hostport ≠ [] := by
    rw [hostport_some h]
    simp
  rw [databaseOf_host hslash hne]
  cases hhost : u.host with
  | empty =>
      constructor
      · intro heq
        rw [database, hhost] at heq
        have hlen := congrArg List.length heq
        simp only [List.length_append, List.length_singleton] at hlen
        omega
      · rintro ⟨s, _, _, hs⟩
        cases hs
  | name s nonempty plain =>
      constructor
      · exact fun _ => ⟨s, nonempty, plain, rfl⟩
      · intro _
        rw [database_host (by rw [hhost]; intro h; cases h), hostport_some h, h, hhost, Option.elim_some]
        show hostPort (s ++ [0x3A] ++ digits) ++ [0x3A] ++ u.path = s ++ ([0x2F] ++ digits) ++ [0x3A] ++ u.path
        rw [hostPort_port (plain 0x5D (by decide)) hcolon hclosing]
        simp only [List.append_assoc]
  | bracketed address plain =>
      have hbracket : 0x5D ∈ u.hostport := by
        rw [hostport_some h, hhost]
        simp [UrlHost.text]
      constructor
      · intro heq
        rw [hostPort_bracket hbracket, database_host (by rw [hhost]; intro h; cases h), hostport_some h, h, hhost,
          Option.elim_some] at heq
        simp only [List.append_assoc] at heq
        -- the port is behind a colon on one side, and behind a slash on the other
        have hcolonSlash := List.append_cancel_left heq
        cases hcolonSlash
      · rintro ⟨s, _, _, hs⟩
        cases hs

theorem databaseOf_eq_iff (u : Url) :
    databaseOf (u.hostport ++ u.path) = u.database ↔ (u.port ≠ none → ∃ s h h', u.host = .name s h h') := by
  cases hport : u.port with
  | none =>
      constructor
      · exact fun _ h => absurd rfl h
      · exact fun _ => databaseOf_no_port hport
  | some digits =>
      rw [databaseOf_port_iff hport]
      constructor
      · exact fun h _ => h
      · exact fun h => h (Option.some_ne_none _)

/-- A database is no longer than what it is made of, but for the colon. -/
theorem databaseOf_length (rest : Bytes) : (databaseOf rest).length ≤ rest.length + 1 := by
  have hsplit := congrArg List.length (List.takeWhile_append_dropWhile (p := (· ≠ (0x2F : UInt8))) (l := rest))
  rw [List.length_append] at hsplit
  unfold databaseOf
  dsimp only
  split_ifs
  · simp only [List.length_append, hostPort_length, List.length_singleton]
    omega
  · omega

/-- What stands behind an `@` in the path makes too short a database. -/
theorem databaseOf_at_path (u : Url) {l r : Bytes} (hpath : u.path = l ++ 0x40 :: r) :
    databaseOf r ≠ u.database := by
  obtain ⟨rest, hslash⟩ := u.path_eq
  have hne : l ≠ [] := by
    rintro rfl
    rw [hpath] at hslash
    cases hslash
  have hpos := List.length_pos_iff.mpr hne
  have hshort := databaseOf_length r
  have hpathlen := u.path_length_le
  rw [hpath, List.length_append, List.length_cons] at hpathlen
  intro h
  rw [h] at hshort
  omega

/-! ## The userinfo -/

theorem splitFirst_userinfo {user password : Bytes} (h : u.userinfo = some (user, password)) :
    (splitFirst 0x40 u.location).getD ([], u.location) =
      (percentEncode user ++ [0x3A] ++ percentEncode password, u.hostport ++ u.path) := by
  have huser := not_mem_percentEncode (c := 0x40) (by decide) user
  have hpassword := not_mem_percentEncode (c := 0x40) (by decide) password
  have hsplit : u.location =
      (percentEncode user ++ [0x3A] ++ percentEncode password) ++ 0x40 :: (u.hostport ++ u.path) := by
    rw [location, userinfoText, h, Option.elim_some]
    simp only [List.append_assoc, List.cons_append, List.nil_append]
  rw [hsplit, splitFirst_append (by simp [huser, hpassword])]
  rfl

theorem setUserinfo_encoded (info : FirebirdConnectionInfo) (user password : Bytes) :
    info.setUserinfo (percentEncode user ++ [0x3A] ++ percentEncode password) =
      { info with user := user, password := password } := by
  have hcolon := not_mem_percentEncode (c := 0x3A) (by decide) user
  unfold setUserinfo
  rw [if_neg (by simp), List.append_assoc, List.singleton_append, splitFirst_append hcolon]
  dsimp only
  rw [urlDecode_percentEncode, urlDecode_percentEncode]

theorem parseLocation_userinfo {user password : Bytes} (h : u.userinfo = some (user, password)) :
    parseLocation u.location =
      { database := databaseOf (u.hostport ++ u.path), user := user, password := password } := by
  unfold parseLocation
  rw [splitFirst_userinfo h]
  simp only [setUserinfo_encoded]

theorem location_bare (h : u.userinfo = none) : u.location = u.hostport ++ u.path := by
  rw [location, userinfoText, h, Option.elim_none, List.nil_append]

theorem parseLocation_bare (h : u.userinfo = none) (hat : 0x40 ∉ u.path) :
    parseLocation u.location = { database := databaseOf (u.hostport ++ u.path) } := by
  have hhost := u.not_mem_hostport (c := 0x40) (by decide)
  unfold parseLocation
  rw [location_bare h, splitFirst_eq_none.mpr (by simp [hhost, hat])]
  rfl

theorem parseLocation_at_path (h : u.userinfo = none) (hat : 0x40 ∈ u.path) :
    (parseLocation u.location).database ≠ u.database := by
  obtain ⟨l, r, hpath, hl⟩ := List.eq_append_cons_of_mem hat
  have hhost := u.not_mem_hostport (c := 0x40) (by decide)
  have hsplit : splitFirst 0x40 u.location = some (u.hostport ++ l, r) := by
    rw [location_bare h, hpath, ← List.append_assoc]
    exact splitFirst_append (by simp [hhost, hl]) r
  unfold parseLocation
  rw [hsplit]
  exact u.databaseOf_at_path hpath

end Url

/-- **Which URLs are read back as they were written**: those that have a userinfo, or no `@` in the path; and
    that have no port, or the name of a host. -/
theorem url_round_trip_iff (u : Url) :
    parse u.text = .ok u.info ↔
      (u.userinfo = none → 0x40 ∉ u.path) ∧ (u.port ≠ none → ∃ s h h', u.host = .name s h h') := by
  rw [u.parse_text, ← u.databaseOf_eq_iff]
  unfold Url.info
  rcases huser : u.userinfo with _ | ⟨user, password⟩
  · constructor
    · intro h
      have hdatabase : (parseLocation u.location).database = u.database :=
        congrArg FirebirdConnectionInfo.database (Except.ok.inj h)
      have hat : 0x40 ∉ u.path := fun hmem => Url.parseLocation_at_path huser hmem hdatabase
      rw [Url.parseLocation_bare huser hat] at hdatabase
      exact ⟨fun _ => hat, hdatabase⟩
    · rintro ⟨hat, hdatabase⟩
      rw [Url.parseLocation_bare huser (hat rfl), hdatabase]
  · rw [Url.parseLocation_userinfo huser]
    constructor
    · intro h
      exact ⟨fun hnone => absurd hnone (Option.some_ne_none _),
        congrArg FirebirdConnectionInfo.database (Except.ok.inj h)⟩
    · rintro ⟨-, hdatabase⟩
      rw [hdatabase]

theorem localhost_nonempty : utf8 "localhost" ≠ [] := by decide

theorem localhost_plain : ∀ c ∈ utf8 "/?@:[]", c ∉ utf8 "localhost" := by decide +kernel

theorem no_port_digits :
    ∀ digits : Bytes, (none : Option Bytes) = some digits → ∀ c ∈ digits, 0x30 ≤ c ∧ c ≤ 0x39 :=
  fun _ h => by cases h

theorem no_options_accepted : ∀ p ∈ ([] : Options), p.1 = .nonePushdown → AcceptedBool p.2 :=
  fun _ h => by cases h

theorem atPath_no_query : 0x3F ∉ utf8 "/data/a@b.fdb" := by decide

/-- `firebird://localhost/data/a@b.fdb` -/
def atPathUrl : Url where
  userinfo := none
  host := .name (utf8 "localhost") localhost_nonempty localhost_plain
  port := none
  path := utf8 "/data/a@b.fdb"
  options := []
  port_digits := no_port_digits
  path_absolute := rfl
  path_no_query := atPath_no_query
  accepted := no_options_accepted

theorem loopback_plain : ∀ c ∈ utf8 "/?@[]", c ∉ utf8 "::1" := by decide +kernel

theorem port_3050_digits :
    ∀ digits : Bytes, some (utf8 "3050") = some digits → ∀ c ∈ digits, 0x30 ≤ c ∧ c ≤ 0x39 := by
  intro digits h
  obtain rfl := Option.some.inj h
  decide +kernel

theorem loopbackPath_no_query : 0x3F ∉ utf8 "/data/b.fdb" := by decide

/-- `firebird://app:secret@[::1]:3050/data/b.fdb` -/
def bracketedPortUrl : Url where
  userinfo := some (utf8 "app", utf8 "secret")
  host := .bracketed (utf8 "::1") loopback_plain
  port := some (utf8 "3050")
  path := utf8 "/data/b.fdb"
  options := []
  port_digits := port_3050_digits
  path_absolute := rfl
  path_no_query := loopbackPath_no_query
  accepted := no_options_accepted

/-- **Two URLs that are misread**: what stands before the `@` of the path is taken for the user, and the port
    behind the bracket is not made the port of the database. -/
theorem misread_urls :
    parse atPathUrl.text = .ok { database := utf8 "b.fdb:", user := utf8 "localhost/data/a" } ∧
    parse bracketedPortUrl.text =
      .ok { database := utf8 "[::1]:3050:/data/b.fdb", user := utf8 "app", password := utf8 "secret" } ∧
    ¬∀ u : Url, parse u.text = .ok u.info := by
  have hpath : parse atPathUrl.text = .ok { database := utf8 "b.fdb:", user := utf8 "localhost/data/a" } := by
    decide +kernel
  have hport : parse bracketedPortUrl.text =
      .ok { database := utf8 "[::1]:3050:/data/b.fdb", user := utf8 "app", password := utf8 "secret" } := by
    decide +kernel
  refine ⟨hpath, hport, ?_⟩
  intro h
  have hinfo := congrArg FirebirdConnectionInfo.database (Except.ok.inj (hpath.symm.trans (h atPathUrl)))
  exact absurd hinfo (by decide)

end FirebirdScan
