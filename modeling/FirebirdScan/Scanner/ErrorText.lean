import FirebirdScan.Client.PasswordPlace
import FirebirdScan.Lib.Rewrite
import FirebirdScan.Scanner.Telemetry

/-!
# `Scanner.ErrorText` — error messages without passwords (`SanitizeErrorMessage`)

Before the text of an error is stored, two patterns are replaced in it: a `password=` with what follows it up to the
next separator, and a `://user:password@`. A connection string holds its password in one of these places
(`parse_passwordPlace`), but the parser ends a password elsewhere than the patterns do.
-/

namespace FirebirdScan

open Rewrite FirebirdConnectionInfo

/-! ## The patterns -/

/-- `[\s;'"]` -/
def isSeparator (c : UInt8) : Bool := isSpace c || c = 0x3B || c = 0x27 || c = 0x22

/-- `password\s*=\s*`, in any case: the text that matches, and what follows it. -/
def readPasswordKey (s : Bytes) : Option (Bytes × Bytes) :=
  if toLower (s.take 8) = utf8 "password" then
    match (s.drop 8).dropWhile isSpace with
    | 0x3D :: r =>
        some (s.take 8 ++ (s.drop 8).takeWhile isSpace ++ [0x3D] ++ r.takeWhile isSpace, r.dropWhile isSpace)
    | _ => none
  else none

/-- `(password\s*=\s*)[^\s;'"]*`, replaced by `$1<redacted>`. -/
def redactPassword (s : Bytes) : Option (Bytes × Bytes) :=
  (readPasswordKey s).map fun (key, r) => (key ++ utf8 "<redacted>", r.dropWhile fun c => !isSeparator c)

/-- `[^/@\s:]` -/
def isUserinfoUser (c : UInt8) : Bool := !(c = 0x2F || c = 0x40 || isSpace c || c = 0x3A)

/-- `[^/@\s]` -/
def isUserinfoPassword (c : UInt8) : Bool := !(c = 0x2F || c = 0x40 || isSpace c)

/-- `[^/@\s:]+:[^/@\s]+@`: what follows it. Each run ends where the pattern goes on, so none is ever cut short. -/
def skipUserinfo (s : Bytes) : Option Bytes :=
  if s.takeWhile isUserinfoUser = [] then none
  else
    match s.dropWhile isUserinfoUser with
    | 0x3A :: r =>
        if r.takeWhile isUserinfoPassword = [] then none
        else
          match r.dropWhile isUserinfoPassword with
          | 0x40 :: rest => some rest
          | _ => none
    | _ => none

/-- `(://)[^/@\s:]+:[^/@\s]+(@)`, replaced by `$1<redacted>$2`. -/
def redactUserinfo (s : Bytes) : Option (Bytes × Bytes) :=
  match s with
  | 0x3A :: 0x2F :: 0x2F :: r => (skipUserinfo r).map fun rest => (utf8 "://<redacted>@", rest)
  | _ => none

theorem length_dropWhile_le (p : UInt8 → Bool) (s : Bytes) : (s.dropWhile p).length ≤ s.length :=
  (List.dropWhile_sublist p).length_le

theorem readPasswordKey_shrinks {s key r : Bytes} (h : readPasswordKey s = some (key, r)) :
    r.length < s.length := by
  unfold readPasswordKey at h
  split_ifs at h
  split at h
  next r' hr' =>
    obtain ⟨-, rfl⟩ := Prod.mk.inj (Option.some.inj h)
    have h1 := length_dropWhile_le isSpace r'
    have h2 := length_dropWhile_le isSpace (s.drop 8)
    rw [hr', List.length_cons, List.length_drop] at h2
    omega
  · cases h

theorem redactPassword_shrinks (s out rest : Bytes) (h : redactPassword s = some (out, rest)) :
    rest.length < s.length := by
  obtain ⟨⟨key, r⟩, hkey, hrest⟩ := Option.map_eq_some_iff.mp h
  obtain ⟨-, rfl⟩ := Prod.mk.inj hrest
  exact lt_of_le_of_lt (length_dropWhile_le _ r) (readPasswordKey_shrinks hkey)

theorem skipUserinfo_shrinks {s rest : Bytes} (h : skipUserinfo s = some rest) : rest.length < s.length := by
  unfold skipUserinfo at h
  split_ifs at h
  split at h
  next r hr =>
    split_ifs at h
    split at h
    next rest' hrest' =>
      obtain rfl := Option.some.inj h
      have h1 := length_dropWhile_le isUserinfoUser s
      have h2 := length_dropWhile_le isUserinfoPassword r
      rw [hr, List.length_cons] at h1
      rw [hrest', List.length_cons] at h2
      omega
    · cases h
  · cases h

theorem redactUserinfo_shrinks (s out rest : Bytes) (h : redactUserinfo s = some (out, rest)) :
    rest.length < s.length := by
  unfold redactUserinfo at h
  split at h
  next r =>
    obtain ⟨rest', hskip, heq⟩ := Option.map_eq_some_iff.mp h
    obtain ⟨-, rfl⟩ := Prod.mk.inj heq
    have hlt := skipUserinfo_shrinks hskip
    simp only [List.length_cons]
    omega
  · cases h

/-- `pw_re` -/
def passwordRule : Rule UInt8 := ⟨redactPassword, redactPassword_shrinks⟩

/-- `up_re` -/
def userinfoRule : Rule UInt8 := ⟨redactUserinfo, redactUserinfo_shrinks⟩

/-- `SanitizeErrorMessage`. -/
def sanitizeErrorMessage (msg : Bytes) : Bytes := rewrite userinfoRule (rewrite passwordRule msg)

/-- `SetError`. -/
def FirebirdObservabilityState.setError (state : FirebirdObservabilityState) (msg : Bytes) :
    FirebirdObservabilityState where
  last := state.last.map fun record => { record with errorMessage := sanitizeErrorMessage msg }
  log := state.log.modifyLast fun record => { record with errorMessage := sanitizeErrorMessage msg }

/-! ## The first pattern, across a border -/

theorem redactPassword_key {s key r : Bytes} (h : readPasswordKey s = some (key, r)) :
    redactPassword s = some (key ++ utf8 "<redacted>", r.dropWhile fun c => !isSeparator c) := by
  unfold redactPassword
  rw [h]
  rfl

theorem redactPassword_none {s : Bytes} (h : readPasswordKey s = none) : redactPassword s = none := by
  unfold redactPassword
  rw [h, Option.map_none]

/-- A text that begins with it is not told apart from the rest of a `password=`. -/
structure Borders (c : UInt8) : Prop where
  letter : toLowerByte c ∉ utf8 "assword"
  equals : c ≠ 0x3D
  space : isSpace c = false

/-- What follows the key is a part of the text. -/
theorem readPasswordKey_mem {s key r : Bytes} (h : readPasswordKey s = some (key, r)) : ∀ c ∈ r, c ∈ s := by
  intro c hc
  unfold readPasswordKey at h
  split_ifs at h
  split at h
  next r' hr' =>
    obtain ⟨-, rfl⟩ := Prod.mk.inj (Option.some.inj h)
    have hr : c ∈ (s.drop 8).dropWhile isSpace := by
      rw [hr']
      exact List.mem_cons_of_mem _ ((List.dropWhile_sublist isSpace).mem hc)
    exact List.mem_of_mem_drop ((List.dropWhile_sublist isSpace).mem hr)
  · cases h

/-- No match of the key crosses a border. -/
theorem readPasswordKey_append {front s : Bytes} {c : UInt8} (hc : Borders c) (hne : front ≠ []) :
    readPasswordKey (front ++ c :: s) = (readPasswordKey front).map fun p => (p.1, p.2 ++ c :: s) := by
  by_cases hlength : front.length < 8
  · -- a letter of the key would have to be the one behind the front
    have hshort : readPasswordKey front = none := by
      unfold readPasswordKey
      apply if_neg
      intro h
      have hlen := congrArg List.length h
      rw [toLower, List.length_map, List.length_take] at hlen
      have hkey : (utf8 "password").length = 8 := by decide
      omega
    rw [hshort, Option.map_none]
    unfold readPasswordKey
    refine if_neg fun h => hc.letter ?_
    have hpos := List.length_pos_iff.mpr hne
    have hat : (toLower ((front ++ c :: s).take 8))[front.length]? = some (toLowerByte c) := by
      rw [toLower, List.getElem?_map, List.getElem?_take_of_lt hlength, List.getElem?_append_right le_rfl,
        Nat.sub_self]
      rfl
    rw [h] at hat
    have htail : utf8 "password" = 0x70 :: utf8 "assword" := by decide
    obtain ⟨k, hk⟩ : ∃ k, front.length = k + 1 := ⟨front.length - 1, by omega⟩
    rw [htail, hk, List.getElem?_cons_succ] at hat
    exact List.mem_of_getElem? hat
  · -- the key is within the front, and the border ends the blanks around the equals sign
    have hle : 8 ≤ front.length := Nat.le_of_not_lt hlength
    unfold readPasswordKey
    rw [List.take_append_of_le_length hle, List.drop_append_of_le_length hle]
    split_ifs
    · rw [takeWhile_append_stop hc.space, dropWhile_append_stop hc.space]
      rcases (front.drop 8).dropWhile isSpace with _ | ⟨b, r⟩
      · rw [List.nil_append]
        split
        next heq => exact absurd (List.cons.inj heq).1 hc.equals
        · rfl
      · rw [List.cons_append]
        by_cases hb : b = 0x3D
        · subst hb
          simp only [Option.map_some, takeWhile_append_stop hc.space, dropWhile_append_stop hc.space]
        · split
          next heq => exact absurd (List.cons.inj heq).1 hb
          · split
            next heq => exact absurd (List.cons.inj heq).1 hb
            · rfl
    · rfl

/-- The first pattern does the same to two texts that begin with a border and agree from a separator on. -/
theorem sameBehind_password {c : UInt8} (hc : Borders c) {s s' : Bytes}
    (hsame : (c :: s).dropWhile (fun b => !isSeparator b) = (c :: s').dropWhile fun b => !isSeparator b)
    (front : Bytes) (hne : front ≠ []) : SameBehind passwordRule front (c :: s) (c :: s') := by
  have h := @readPasswordKey_append front s c hc hne
  have h' := @readPasswordKey_append front s' c hc hne
  rcases hkey : readPasswordKey front with _ | ⟨key, r⟩
  · rw [hkey, Option.map_none] at h h'
    exact .none (redactPassword_none h) (redactPassword_none h')
  · rw [hkey, Option.map_some] at h h'
    have hshort := lt_of_le_of_lt (length_dropWhile_le (fun b => !isSeparator b) r) (readPasswordKey_shrinks hkey)
    have hrest := redactPassword_key h
    have hrest' := redactPassword_key h'
    rw [List.dropWhile_append] at hrest hrest'
    by_cases hend : (r.dropWhile fun b => !isSeparator b).isEmpty = true
    · -- the match goes on behind the front
      rw [if_pos hend] at hrest hrest'
      rw [← hsame] at hrest'
      exact .swallows _ _ hrest hrest'
    · rw [if_neg hend] at hrest hrest'
      exact .within _ _ hshort hrest hrest'

/-! ## The second pattern, across a border -/

/-- The password of a userinfo does not go beyond the start of another match. -/
theorem dropWhile_password_append (r s : Bytes) :
    (r.dropWhile isUserinfoPassword = [] ∧
        (r ++ 0x3A :: 0x2F :: s).dropWhile isUserinfoPassword = 0x2F :: s) ∨
      (r.dropWhile isUserinfoPassword ≠ [] ∧
        (r ++ 0x3A :: 0x2F :: s).takeWhile isUserinfoPassword = r.takeWhile isUserinfoPassword ∧
        (r ++ 0x3A :: 0x2F :: s).dropWhile isUserinfoPassword =
          r.dropWhile isUserinfoPassword ++ 0x3A :: 0x2F :: s) := by
  rw [List.dropWhile_append, List.takeWhile_append]
  by_cases hend : r.dropWhile isUserinfoPassword = []
  · exact .inl ⟨hend, by rw [hend]; rfl⟩
  · refine .inr ⟨hend, if_neg fun hlength => hend ?_, if_neg fun hempty => hend (List.isEmpty_iff.mp hempty)⟩
    rw [List.dropWhile_eq_nil_iff, ← List.takeWhile_eq_self_iff]
    exact (List.takeWhile_prefix _).eq_of_length hlength

theorem skipUserinfo_append (front s : Bytes) :
    skipUserinfo (front ++ 0x3A :: 0x2F :: s) = (skipUserinfo front).map (· ++ 0x3A :: 0x2F :: s) := by
  have hcolon : isUserinfoUser 0x3A = false := by decide
  unfold skipUserinfo
  rw [takeWhile_append_stop hcolon, dropWhile_append_stop hcolon]
  split_ifs
  · rfl
  · rcases front.dropWhile isUserinfoUser with _ | ⟨b, r⟩
    · rfl
    · by_cases hb : b = 0x3A
      · subst hb
        simp only [List.cons_append]
        rcases dropWhile_password_append r s with ⟨hend, hback⟩ | ⟨hend, htake, hback⟩
        · rw [hend, hback]
          split_ifs <;> rfl
        · rw [htake, hback]
          split_ifs
          · rfl
          · rcases hdrop : r.dropWhile isUserinfoPassword with _ | ⟨d, rest⟩
            · exact absurd hdrop hend
            · by_cases hd : d = 0x40
              · subst hd
                rfl
              · simp [hd]
      · simp [hb]

/-- No match of the second pattern crosses the start of another one. -/
theorem redactUserinfo_append {front : Bytes} (hne : front ≠ []) (s : Bytes) :
    redactUserinfo (front ++ 0x3A :: 0x2F :: s) =
      (redactUserinfo front).map fun p => (p.1, p.2 ++ 0x3A :: 0x2F :: s) := by
  obtain _ | ⟨a, _ | ⟨b, _ | ⟨c, front⟩⟩⟩ := front
  · exact absurd rfl hne
  · simp [redactUserinfo]
  · simp [redactUserinfo]
  · simp only [List.cons_append, redactUserinfo]
    split
    next r heq =>
      obtain ⟨rfl, rfl, rfl, rfl⟩ : a = 0x3A ∧ b = 0x2F ∧ c = 0x2F ∧ front ++ 0x3A :: 0x2F :: s = r := by
        simpa using heq
      simp only [skipUserinfo_append, Option.map_map]
      rfl
    next hother =>
      split
      next r heq =>
        obtain ⟨rfl, rfl, rfl, rfl⟩ : a = 0x3A ∧ b = 0x2F ∧ c = 0x2F ∧ front = r := by simpa using heq
        exact absurd rfl (hother _)
      · rfl

theorem sameBehind_userinfo (s s' front : Bytes) (hne : front ≠ []) :
    SameBehind userinfoRule front (0x3A :: 0x2F :: s) (0x3A :: 0x2F :: s') := by
  have h := redactUserinfo_append hne s
  have h' := redactUserinfo_append hne s'
  rcases hmatch : redactUserinfo front with _ | ⟨out, rest⟩
  · rw [hmatch, Option.map_none] at h h'
    exact .none h h'
  · rw [hmatch, Option.map_some] at h h'
    exact .within out rest (redactUserinfo_shrinks front out rest hmatch) h h'

/-! ## Messages -/

/-- The first pattern matches nowhere in a text. -/
def NoKey (s : Bytes) : Prop := ∀ t ∈ s.tails, readPasswordKey t = none

instance (s : Bytes) : Decidable (NoKey s) := inferInstanceAs (Decidable (∀ t ∈ s.tails, readPasswordKey t = none))

/-- `password=`, as it stands in front of a password. -/
theorem readPasswordKey_key {s : Bytes} (h : ∀ c ∈ s.head?, isSpace c = false) :
    readPasswordKey (utf8 "password=" ++ s) = some (utf8 "password=", s) := by
  have htake : (utf8 "password=" ++ s).take 8 = utf8 "password" := rfl
  have hdrop : (utf8 "password=" ++ s).drop 8 = 0x3D :: s := rfl
  have hlower : toLower (utf8 "password") = utf8 "password" := by decide
  have hkey : utf8 "password" ++ [0x3D] = utf8 "password=" := by decide
  have hequals : isSpace 0x3D = false := by decide
  unfold readPasswordKey
  rw [htake, hdrop, if_pos hlower, List.takeWhile_cons, List.dropWhile_cons, hequals]
  cases s with
  | nil => rfl
  | cons c s =>
      have hc := h c rfl
      simp only [Bool.false_eq_true, if_false, List.append_nil, hkey, List.takeWhile_cons, List.dropWhile_cons, hc]

/-- A text without separators is passed over. -/
theorem dropWhile_noSeparator {s : Bytes} (hs : ∀ c ∈ s, isSeparator c = false) (rest : Bytes) :
    (s ++ rest).dropWhile (fun c => !isSeparator c) = rest.dropWhile fun c => !isSeparator c :=
  List.dropWhile_append_of_pos fun c hc => by rw [hs c hc]; rfl

/-- **Behind `password=`**, what has no separator is replaced, whatever stands in front. -/
theorem rewrite_option {pw pw' back : Bytes} (hpw : ∀ c ∈ pw, isSeparator c = false)
    (hpw' : ∀ c ∈ pw', isSeparator c = false) (hnext : ∀ c ∈ (pw ++ back).head?, isSpace c = false)
    (hnext' : ∀ c ∈ (pw' ++ back).head?, isSpace c = false) (front : Bytes) :
    rewrite passwordRule (front ++ (utf8 "password=" ++ (pw ++ back))) =
      rewrite passwordRule (front ++ (utf8 "password=" ++ (pw' ++ back))) := by
  have hborder : Borders 0x70 := ⟨by decide, by decide, by decide⟩
  have hkey : ∀ c ∈ utf8 "password=", isSeparator c = false := by decide +kernel
  have hdrop : ∀ {p : Bytes}, (∀ c ∈ p, isSeparator c = false) →
      (utf8 "password=" ++ (p ++ back)).dropWhile (fun c => !isSeparator c) =
        back.dropWhile fun c => !isSeparator c := by
    intro p hp
    rw [dropWhile_noSeparator hkey, dropWhile_noSeparator hp]
  have happly : ∀ {p : Bytes}, (∀ c ∈ p, isSeparator c = false) → (∀ c ∈ (p ++ back).head?, isSpace c = false) →
      passwordRule.apply (utf8 "password=" ++ (p ++ back)) =
        some (utf8 "password=" ++ utf8 "<redacted>", back.dropWhile fun c => !isSeparator c) := by
    intro p hp hp'
    rw [← dropWhile_noSeparator hp]
    exact redactPassword_key (readPasswordKey_key hp')
  refine rewrite_append (fun _ => rfl) (fun x s s' hs => congrArg (x ++ ·) hs) ?_ (fun front hne => ?_) front
  · rw [rewrite_some (happly hpw hnext), rewrite_some (happly hpw' hnext')]
  · exact sameBehind_password hborder ((hdrop hpw).trans (hdrop hpw').symm) front hne

/-- A userinfo as the second pattern has it. -/
structure UserinfoShape (user pw : Bytes) : Prop where
  user_ne : user ≠ []
  user_chars : ∀ c ∈ user, isUserinfoUser c = true
  pw_ne : pw ≠ []
  pw_chars : ∀ c ∈ pw, isUserinfoPassword c = true

theorem redactUserinfo_match {user pw : Bytes} (h : UserinfoShape user pw) (rest : Bytes) :
    redactUserinfo (0x3A :: 0x2F :: 0x2F :: (user ++ 0x3A :: (pw ++ 0x40 :: rest))) =
      some (utf8 "://<redacted>@", rest) := by
  have hcolon : isUserinfoUser 0x3A = false := by decide
  have hat : isUserinfoPassword 0x40 = false := by decide
  have htakeUser := List.takeWhile_eq_self_iff.mpr h.user_chars
  have hdropUser := List.dropWhile_eq_nil_iff.mpr h.user_chars
  have htakePw := List.takeWhile_eq_self_iff.mpr h.pw_chars
  have hdropPw := List.dropWhile_eq_nil_iff.mpr h.pw_chars
  show (skipUserinfo _).map _ = _
  unfold skipUserinfo
  rw [takeWhile_append_stop hcolon, dropWhile_append_stop hcolon, htakeUser, hdropUser, if_neg h.user_ne]
  simp only [List.nil_append]
  rw [takeWhile_append_stop hat, dropWhile_append_stop hat, htakePw, hdropPw, if_neg h.pw_ne]
  rfl

/-- The second pattern makes the same of two texts, whatever stands in front. -/
def UserinfoAlike (s s' : Bytes) : Prop := ∀ x, rewrite userinfoRule (x ++ s) = rewrite userinfoRule (x ++ s')

theorem UserinfoAlike.refl (s : Bytes) : UserinfoAlike s s := fun _ => rfl

theorem UserinfoAlike.append (x s s' : Bytes) (h : UserinfoAlike s s') : UserinfoAlike (x ++ s) (x ++ s') := by
  intro y
  rw [← List.append_assoc, ← List.append_assoc]
  exact h (y ++ x)

/-- **A userinfo** is replaced as a whole. -/
theorem userinfoAlike {user pw pw' : Bytes} (h : UserinfoShape user pw) (h' : UserinfoShape user pw') (rest : Bytes) :
    UserinfoAlike (scheme ++ user ++ 0x3A :: (pw ++ 0x40 :: rest)) (scheme ++ user ++ 0x3A :: (pw' ++ 0x40 :: rest)) := by
  have hmatch : userinfoRule.apply (0x3A :: 0x2F :: 0x2F :: (user ++ 0x3A :: (pw ++ 0x40 :: rest))) =
      some (utf8 "://<redacted>@", rest) := redactUserinfo_match h rest
  have hmatch' : userinfoRule.apply (0x3A :: 0x2F :: 0x2F :: (user ++ 0x3A :: (pw' ++ 0x40 :: rest))) =
      some (utf8 "://<redacted>@", rest) := redactUserinfo_match h' rest
  have hscheme : scheme = utf8 "firebird" ++ [0x3A, 0x2F, 0x2F] := by decide
  intro x
  have hrewrite := rewrite_append (fun _ => rfl) (fun y s s' hs => congrArg (y ++ ·) hs)
    ((rewrite_some hmatch).trans (rewrite_some hmatch').symm) (sameBehind_userinfo _ _) (x ++ utf8 "firebird")
  simpa only [hscheme, List.append_assoc, List.cons_append, List.nil_append] using hrewrite

/-! ## Userinfo behind the first pattern -/

theorem readPasswordKey_cons {c : UInt8} (hc : toLowerByte c ≠ 0x70) (s : Bytes) : readPasswordKey (c :: s) = none := by
  refine if_neg fun h => hc ?_
  have htail : utf8 "password" = 0x70 :: utf8 "assword" := by decide
  rw [htail] at h
  exact (List.cons.inj h).1

/-- What the pattern does not match in is copied, up to a border. -/
theorem rewrite_keep_border {front s : Bytes} {c : UInt8} (hfront : NoKey front) (hc : Borders c) :
    rewrite passwordRule (front ++ c :: s) = front ++ rewrite passwordRule (c :: s) := by
  apply rewrite_keep
  intro t hne hsuffix
  have hnone : readPasswordKey (t ++ c :: s) = none := by
    rw [readPasswordKey_append hc hne, hfront t ((List.mem_tails t front).mpr hsuffix), Option.map_none]
  exact redactPassword_none hnone

theorem borders_colon : Borders 0x3A := ⟨by decide, by decide, by decide⟩

theorem borders_at : Borders 0x40 := ⟨by decide, by decide, by decide⟩

/-- The userinfo that the second pattern finds, if the first one has found nothing up to it. -/
theorem rewrite_keep_userinfo {front pw : Bytes} (hfront : NoKey front) (hpw : NoKey pw) (rest : Bytes) :
    rewrite passwordRule (front ++ 0x3A :: (pw ++ 0x40 :: rest)) =
      front ++ 0x3A :: (pw ++ 0x40 :: rewrite passwordRule rest) := by
  have hcolon : redactPassword (0x3A :: (pw ++ 0x40 :: rest)) = none :=
    redactPassword_none (readPasswordKey_cons (by decide) _)
  have hat : redactPassword (0x40 :: rest) = none := redactPassword_none (readPasswordKey_cons (by decide) _)
  rw [rewrite_keep_border hfront borders_colon, rewrite_none hcolon, rewrite_keep_border hpw borders_at,
    rewrite_none hat]

/-- A match of the key in a text without separators replaces all of the rest of it. -/
theorem rewrite_swallow {front s s' : Bytes} {c : UInt8} (hkey : ¬NoKey front)
    (hfront : ∀ b ∈ front, isSeparator b = false) (hc : Borders c)
    (hsame : (c :: s).dropWhile (fun b => !isSeparator b) = (c :: s').dropWhile fun b => !isSeparator b) :
    rewrite passwordRule (front ++ c :: s) = rewrite passwordRule (front ++ c :: s') := by
  induction front with
  | nil => exact absurd (by decide) hkey
  | cons b front ih =>
      have h := @readPasswordKey_append (b :: front) s c hc (List.cons_ne_nil b front)
      have h' := @readPasswordKey_append (b :: front) s' c hc (List.cons_ne_nil b front)
      rcases hmatch : readPasswordKey (b :: front) with _ | ⟨key, r⟩
      · -- the match is further on
        have hkey' : ¬NoKey front := by
          intro hno
          apply hkey
          intro t ht
          rw [List.tails_cons] at ht
          rcases List.mem_cons.mp ht with rfl | ht
          · exact hmatch
          · exact hno t ht
        rw [hmatch, Option.map_none] at h h'
        have hnone : passwordRule.apply (b :: (front ++ c :: s)) = none := redactPassword_none h
        have hnone' : passwordRule.apply (b :: (front ++ c :: s')) = none := redactPassword_none h'
        rw [List.cons_append, List.cons_append, rewrite_none hnone, rewrite_none hnone']
        exact congrArg (b :: ·) (ih hkey' fun d hd => hfront d (List.mem_cons_of_mem _ hd))
      · rw [hmatch, Option.map_some] at h h'
        have hr : ∀ d ∈ r, isSeparator d = false := fun d hd => hfront d (readPasswordKey_mem hmatch d hd)
        have hout := redactPassword_key h
        have hout' := redactPassword_key h'
        rw [dropWhile_noSeparator hr] at hout hout'
        rw [← hsame] at hout'
        exact (rewrite_some hout).trans (rewrite_some hout').symm

section userinfo

variable {pre user pw pw' : Bytes} (rest : Bytes)

/-- The first pattern cannot part two userinfos: it leaves both alone, or replaces both up to the same separator. -/
theorem userinfoAlike_first (h : UserinfoShape user pw) (h' : UserinfoShape user pw') (hpw : NoKey pw)
    (hpw' : NoKey pw') (huserSep : ∀ c ∈ scheme ++ user, isSeparator c = false)
    (hsame : (0x3A :: (pw ++ 0x40 :: rest)).dropWhile (fun c => !isSeparator c) =
      (0x3A :: (pw' ++ 0x40 :: rest)).dropWhile fun c => !isSeparator c) :
    UserinfoAlike (rewrite passwordRule (scheme ++ user ++ 0x3A :: (pw ++ 0x40 :: rest)))
      (rewrite passwordRule (scheme ++ user ++ 0x3A :: (pw' ++ 0x40 :: rest))) := by
  by_cases hkey : NoKey (scheme ++ user)
  · rw [rewrite_keep_userinfo hkey hpw, rewrite_keep_userinfo hkey hpw']
    exact userinfoAlike h h' (rewrite passwordRule rest)
  · rw [rewrite_swallow hkey huserSep borders_colon hsame]
    exact .refl _

/-- **Behind a text without the key**, a userinfo may have separators. -/
theorem sanitize_userinfo (h : UserinfoShape user pw) (h' : UserinfoShape user pw') (hpw : NoKey pw)
    (hpw' : NoKey pw') (hkey : NoKey (pre ++ scheme ++ user)) :
    sanitizeErrorMessage (pre ++ (scheme ++ user ++ 0x3A :: (pw ++ 0x40 :: rest))) =
      sanitizeErrorMessage (pre ++ (scheme ++ user ++ 0x3A :: (pw' ++ 0x40 :: rest))) := by
  have hfirst := rewrite_keep_userinfo hkey hpw rest
  have hfirst' := rewrite_keep_userinfo hkey hpw' rest
  have hsecond := userinfoAlike h h' (rewrite passwordRule rest) pre
  unfold sanitizeErrorMessage
  simp only [List.append_assoc] at hfirst hfirst' hsecond ⊢
  rw [hfirst, hfirst', hsecond]

theorem dropWhile_userinfo (hpw : ∀ c ∈ pw, isSeparator c = false) :
    (0x3A :: (pw ++ 0x40 :: rest)).dropWhile (fun c => !isSeparator c) =
      (0x40 :: rest).dropWhile fun c => !isSeparator c := by
  have hcons : ∀ c ∈ 0x3A :: pw, isSeparator c = false := by
    intro c hc
    rcases List.mem_cons.mp hc with rfl | hc
    · decide
    · exact hpw c hc
  exact dropWhile_noSeparator hcons (0x40 :: rest)

/-- **Behind any text**, a userinfo without separators: a match of the key that reaches into it takes all of it. -/
theorem sanitize_userinfo_noSeparator (h : UserinfoShape user pw) (h' : UserinfoShape user pw') (hpw : NoKey pw)
    (hpw' : NoKey pw') (huserSep : ∀ c ∈ user, isSeparator c = false) (hpwSep : ∀ c ∈ pw, isSeparator c = false)
    (hpwSep' : ∀ c ∈ pw', isSeparator c = false) :
    sanitizeErrorMessage (pre ++ (scheme ++ user ++ 0x3A :: (pw ++ 0x40 :: rest))) =
      sanitizeErrorMessage (pre ++ (scheme ++ user ++ 0x3A :: (pw' ++ 0x40 :: rest))) := by
  have hschemeSep : ∀ c ∈ scheme ++ user, isSeparator c = false := by
    have hscheme : ∀ c ∈ scheme, isSeparator c = false := by decide +kernel
    intro c hc
    exact (List.mem_append.mp hc).elim (hscheme c) (huserSep c)
  have hsame := (dropWhile_userinfo rest hpwSep).trans (dropWhile_userinfo rest hpwSep').symm
  have hbehind : ∀ front, front ≠ [] → SameBehind passwordRule front
      (scheme ++ user ++ 0x3A :: (pw ++ 0x40 :: rest)) (scheme ++ user ++ 0x3A :: (pw' ++ 0x40 :: rest)) := by
    intro front hne
    have hf : Borders 0x66 := ⟨by decide, by decide, by decide⟩
    have hcons : scheme = 0x66 :: utf8 "irebird://" := by decide
    have hdrop := (dropWhile_noSeparator hschemeSep (0x3A :: (pw ++ 0x40 :: rest))).trans
      (hsame.trans (dropWhile_noSeparator hschemeSep _).symm)
    rw [hcons] at hdrop ⊢
    exact sameBehind_password hf hdrop front hne
  exact rewrite_append UserinfoAlike.refl UserinfoAlike.append
    (userinfoAlike_first rest h h' hpw hpw' hschemeSep hsame) hbehind pre []

end userinfo

/-! ## Connection strings in messages -/

/-- The patterns end where the password does. `pre` and `post` are the rest of the message. -/
def PasswordPlace.Covered (pre post : Bytes) : PasswordPlace → Bytes → Prop
  | .userinfo user _, pw =>
      UserinfoShape user pw ∧ NoKey pw ∧
        (NoKey (pre ++ scheme ++ user) ∨ ∀ c ∈ user ++ pw, isSeparator c = false)
  | .query _ after, pw | .item _ after, pw =>
      (∀ c ∈ pw, isSeparator c = false) ∧ ∀ c ∈ (pw ++ (after ++ post)).head?, isSpace c = false

/-- A covered password is not seen in the message. -/
theorem sanitize_place {place : PasswordPlace} {pre post pw pw' : Bytes} (h : place.Covered pre post pw)
    (h' : place.Covered pre post pw') :
    sanitizeErrorMessage (pre ++ place.text pw ++ post) = sanitizeErrorMessage (pre ++ place.text pw' ++ post) := by
  cases place with
  | userinfo user rest =>
      obtain ⟨hshape, hkey, hpre⟩ := h
      obtain ⟨hshape', hkey', hpre'⟩ := h'
      have hsanitize : sanitizeErrorMessage (pre ++ (scheme ++ user ++ 0x3A :: (pw ++ 0x40 :: (rest ++ post)))) =
          sanitizeErrorMessage (pre ++ (scheme ++ user ++ 0x3A :: (pw' ++ 0x40 :: (rest ++ post)))) := by
        rcases hpre with hpre | hsep
        · exact sanitize_userinfo _ hshape hshape' hkey hkey' hpre
        · rcases hpre' with hpre' | hsep'
          · exact sanitize_userinfo _ hshape hshape' hkey hkey' hpre'
          · apply sanitize_userinfo_noSeparator _ hshape hshape' hkey hkey'
            · exact fun c hc => hsep c (List.mem_append_left pw hc)
            · exact fun c hc => hsep c (List.mem_append_right user hc)
            · exact fun c hc => hsep' c (List.mem_append_right user hc)
      simpa only [PasswordPlace.text, List.append_assoc, List.cons_append] using hsanitize
  | query before after =>
      have hoption := rewrite_option h.1 h'.1 h.2 h'.2 (pre ++ scheme ++ before)
      have hsanitize := congrArg (rewrite userinfoRule) hoption
      simpa only [PasswordPlace.text, sanitizeErrorMessage, List.append_assoc] using hsanitize
  | item before after =>
      have hoption := rewrite_option h.1 h'.1 h.2 h'.2 (pre ++ before)
      have hsanitize := congrArg (rewrite userinfoRule) hoption
      simpa only [PasswordPlace.text, sanitizeErrorMessage, List.append_assoc] using hsanitize

/-- What is stored of a message is its sanitized text. -/
theorem setError_eq (state : FirebirdObservabilityState) {msg msg' : Bytes}
    (h : sanitizeErrorMessage msg = sanitizeErrorMessage msg') : state.setError msg = state.setError msg' := by
  unfold FirebirdObservabilityState.setError
  rw [h]

/-- **Stored errors do not depend on the password** of a connection string in them, in whichever place the parser
    found it, if the patterns end where the password does. -/
theorem stored_error_hides_password {connStr : Bytes} {info : FirebirdConnectionInfo}
    (hparse : parse connStr = .ok info) :
    (info.password = utf8 "masterkey" ∨
      ∃ (place : PasswordPlace) (pw : Bytes), connStr = place.text pw ∧ info.password = place.password pw) ∧
    ∀ (place : PasswordPlace) (pw pw' pre post : Bytes), connStr = place.text pw → place.Covered pre post pw →
      place.Covered pre post pw' →
      sanitizeErrorMessage (pre ++ connStr ++ post) = sanitizeErrorMessage (pre ++ place.text pw' ++ post) ∧
        ∀ state : FirebirdObservabilityState,
          state.setError (pre ++ connStr ++ post) = state.setError (pre ++ place.text pw' ++ post) := by
  refine ⟨parse_passwordPlace hparse, ?_⟩
  rintro place pw pw' pre post rfl h h'
  exact ⟨sanitize_place h h', fun state => setError_eq state (sanitize_place h h')⟩

/-- A quote in a password of a userinfo. -/
theorem stored_error_hides_password_quote :
    sanitizeErrorMessage (utf8 "cannot attach firebird://bob:it's@db/emp.fdb today") =
      sanitizeErrorMessage (utf8 "cannot attach firebird://bob:hers@db/emp.fdb today") := by
  have hparse : parse (utf8 "firebird://bob:it's@db/emp.fdb") =
      .ok { database := utf8 "db:/emp.fdb", user := utf8 "bob", password := utf8 "it's" } := by decide +kernel
  have h := (stored_error_hides_password hparse).2 (.userinfo (utf8 "bob") (utf8 "db/emp.fdb")) (utf8 "it's")
    (utf8 "hers") (utf8 "cannot attach ") (utf8 " today") (by decide +kernel)
    ⟨⟨by decide, by decide +kernel, by decide, by decide +kernel⟩, by decide +kernel, .inl (by decide +kernel)⟩
    ⟨⟨by decide, by decide +kernel, by decide, by decide +kernel⟩, by decide +kernel, .inl (by decide +kernel)⟩
  exact h.1

/-- The pattern ends at a blank, and the parser does not. -/
theorem password_tail_stored :
    parse (utf8 "database=e;password=a b") = .ok { database := utf8 "e", password := utf8 "a b" } ∧
    parse (utf8 "database=e;password=a c") = .ok { database := utf8 "e", password := utf8 "a c" } ∧
    sanitizeErrorMessage (utf8 "database=e;password=a b") = utf8 "database=e;password=<redacted> b" ∧
    sanitizeErrorMessage (utf8 "database=e;password=a b") ≠ sanitizeErrorMessage (utf8 "database=e;password=a c") := by
  decide +kernel

end FirebirdScan
